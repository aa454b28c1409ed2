import Cnegative.Parse.Postfix

namespace Cnegative

namespace Parse

/-! Array literals, struct literals and if expressions. -/

variable {tokens : List Token} {tree : ExprTree}

theorem ReadBase.arrayLiteral {items : List ExprTree} (offset : Nat) (hitems : ItemsRead items) :
    ReadBase (keyword .lbracket offset :: (printItems items ++ [mark .rbracket]))
      (.arrayLiteral offset items none) := by
  refine .of_primary fun room rest hroom _ =>
    .current_cons (.bind_cons (.advance TokenKind.noConfusion) ?_)
  refine .map ?_
  cases items with
  | nil => exact .check true rfl (.bind_cons (.consume rfl (by decide) _) (.pure _ rest))
  | cons first items =>
      simp only [printItems, List.cons_append, List.append_assoc, List.nil_append,
        List.length_cons] at hroom
      have hsemicolon : kindAt (printMore items ++ [mark .rbracket] ++ rest) 0 ≠ .semicolon := by
        intro hkind
        cases items <;> cases hkind
      obtain ⟨hkind, hfirst, hmore⟩ :=
        @consumes_list .rbracket rfl rfl (by decide) (by decide) _ _ hitems _ _
          (Nat.lt_of_succ_le hroom)
      rw [printItems, List.append_assoc]
      refine .check false hkind (.bind hfirst (.bind_nil (.accept_other hsemicolon) ?_))
      exact .bind hmore (.bind_cons (.consume rfl (by decide) _) (.pure _ rest))

/-- `[item; count]`. -/
theorem ReadBase.repeatLiteral {item count : ExprTree} (offset : Nat)
    (hitem : Whole (printExpr item) item) (hcount : Whole (printExpr count) count) :
    ReadBase (keyword .lbracket offset :: (printExpr item ++
        mark .semicolon :: (printExpr count ++ [mark .rbracket])))
      (.arrayLiteral offset [item] (some count)) := by
  refine .of_primary fun room rest hroom _ => .current_cons (.bind_cons (.advance nofun) ?_)
  refine .map ?_
  simp only [List.cons_append, List.append_assoc, List.nil_append, List.length_cons] at hroom
  have hbefore : (printExpr item ++ (mark .semicolon :: (printExpr count ++
    mark .rbracket :: rest))).length < room := Nat.lt_of_succ_le hroom
  have hafter : (printExpr count ++ mark .rbracket :: rest).length < room := by
    simp only [List.length_append, List.length_cons] at hbefore ⊢
    omega
  refine .check false ?_ (.bind (hitem.closed ?_ rfl nofun) ?_)
  · have hkind := hitem.kindAt_ne
      (mark .semicolon :: (printExpr count ++ [mark .rbracket]) ++ rest)
      (show startsAt 0 .rbracket = false from rfl)
    rwa [← List.append_assoc, ← beq_eq_false_iff_ne] at hkind
  · simpa only [List.cons_append, List.append_assoc, List.nil_append] using hbefore
  · refine .bind_cons (.accept rfl (by decide)) (.bind (hcount.closed hafter rfl nofun) ?_)
    exact .bind_cons (.consume rfl (by decide) _) (.pure _ rest)

/-! Struct literals. -/

/-- The tokens of each field's value are read as the value. -/
def FieldsRead (fields : List (Text × ExprTree)) : Prop :=
  ∀ entry ∈ fields, Whole (printExpr entry.2) entry.2

/-- One field, with the comma behind it. -/
theorem consumes_field {name : Text} {comma rest : List Token} (hwhole : Whole tokens tree)
    {room : Nat} (hroom : (tokens ++ (comma ++ rest)).length < room)
    (hgoesOn : goesOn 0 (kindAt (comma ++ rest) 0) = false)
    (hbrace : kindAt (comma ++ rest) 0 ≠ .lbrace) {answer : Bool}
    (hcomma : Consumes (accept .comma) comma rest answer) (carried : List (Text × ExprTree)) :
    Consumes (initRound (parseExpressionWith room) carried)
      (identifier 0 name :: mark .colon :: (tokens ++ comma)) rest
      (.inl (carried ++ [(name, tree)])) := by
  refine .check false rfl (.check false rfl ?_)
  refine .bind_cons (@Consumes.consume (identifier 0 name) .identifier _ rfl (by decide) _) ?_
  refine .bind_cons (.consume rfl (by decide) _) ?_
  exact .bind (hwhole.closed hroom hgoesOn hbrace) (hcomma.bind_last (.pure _ rest))

theorem loopReads_fields {fields : List (Text × ExprTree)} (hfields : FieldsRead fields)
    {room : Nat} {rest : List Token} (carried : List (Text × ExprTree))
    (hroom : (printFields fields ++ mark .rbrace :: rest).length ≤ room) :
    LoopReads (initRound (parseExpressionWith room)) carried (printFields fields)
      (mark .rbrace :: rest) (carried ++ fields) := by
  induction fields generalizing carried with
  | nil =>
      rw [List.append_nil]
      exact .refl _ carried _
  | cons entry fields ih =>
      obtain ⟨name, value⟩ := entry
      have hvalue : Whole (printExpr value) value := hfields _ List.mem_cons_self
      rw [printFields] at hroom ⊢
      simp only [List.cons_append, List.append_assoc, List.length_cons] at hroom
      cases fields with
      | nil =>
          have hend : Consumes (accept .comma) [] (mark .rbrace :: rest) false :=
            .accept_other nofun
          refine .round (by simp) (consumes_field hvalue ?_ rfl ?_ hend carried)
          · exact Nat.lt_of_lt_of_le (Nat.lt_succ_of_le (Nat.le_succ _)) hroom
          · exact (show TokenKind.rbrace ≠ .lbrace by decide)
      | cons next fields =>
          simp only [List.isEmpty_cons, Bool.false_eq_true, if_false] at hroom ⊢
          have hlength : (printFields (next :: fields) ++ mark .rbrace :: rest).length ≤ room := by
            rw [List.length_append, List.cons_append, List.length_cons] at hroom
            omega
          have hrest := ih (fun other hother => hfields other (List.mem_cons_of_mem _ hother))
            (carried ++ [(name, value)]) hlength
          rw [List.append_assoc] at hrest
          have hround : LoopReads (initRound (parseExpressionWith room)) carried
              (identifier 0 name :: mark .colon :: (printExpr value ++ [mark .comma]))
              (printFields (next :: fields) ++ mark .rbrace :: rest)
              (carried ++ [(name, value)]) := by
            have hcomma : Consumes (accept .comma) [mark .comma]
                (printFields (next :: fields) ++ mark .rbrace :: rest) true :=
              .accept rfl (by decide)
            refine .round (by simp) (consumes_field hvalue ?_ rfl ?_ hcomma carried)
            · exact Nat.lt_of_lt_of_le (Nat.lt_succ_of_le (Nat.le_succ _)) hroom
            · exact (show TokenKind.comma ≠ .lbrace by decide)
          have hboth := hround.trans hrest
          simpa only [List.cons_append, List.append_assoc, List.nil_append] using hboth

theorem consumes_structLiteral {fields : List (Text × ExprTree)} (hfields : FieldsRead fields)
    (moduleName typeName : Text) (offset : Nat) {room : Nat} {rest : List Token}
    (hroom : (printFields fields ++ mark .rbrace :: rest).length ≤ room) :
    Consumes (parseStructLiteral (parseExpressionWith room) moduleName (identifier offset typeName))
      (mark .lbrace :: (printFields fields ++ [mark .rbrace])) rest
      (.structLiteral offset moduleName typeName fields) := by
  refine .bind_cons (.consume rfl (by decide) _) ?_
  refine .bind ((loopReads_fields hfields [] hroom).finish (.check true rfl (.pure _ _))) ?_
  exact .bind_cons (.consume rfl (by decide) _) (.pure _ rest)

theorem ReadBase.structLiteral {fields : List (Text × ExprTree)} (offset : Nat)
    (moduleName typeName : Text) (hne : fields ≠ []) (hfields : FieldsRead fields) :
    ReadBase (printQualifier moduleName ++
        identifier offset typeName :: mark .lbrace :: (printFields fields ++ [mark .rbrace]))
      (.structLiteral offset moduleName typeName fields) := by
  refine .of_primary fun room rest hroom _ last diagnostics => ?_
  obtain ⟨⟨name, value⟩, fields, rfl⟩ := List.exists_cons_of_ne_nil hne
  have hlength : (printFields ((name, value) :: fields) ++ mark .rbrace :: rest).length ≤
      room := by
    simp only [List.cons_append, List.append_assoc, List.nil_append, List.length_cons,
      List.length_append] at hroom ⊢
    omega
  have hliteral := consumes_structLiteral hfields moduleName typeName offset hlength
  unfold printQualifier
  split
  · rename_i hplain
    subst hplain
    change parseNamed (parseExpressionWith room) (identifier offset typeName)
      ⟨identifier offset typeName :: (mark .lbrace :: (printFields ((name, value) :: fields) ++
        [mark .rbrace]) ++ rest), last, diagnostics⟩ = _
    rw [parseNamed_eq]
    have hname : Consumes advance [identifier offset typeName]
        (mark .lbrace :: (printFields ((name, value) :: fields) ++ [mark .rbrace]) ++ rest)
        (identifier offset typeName) := .advance nofun
    exact (hname.bind_cons hliteral.map) last diagnostics
  · change parseNamed (parseExpressionWith room) (identifier 0 moduleName)
      ⟨identifier 0 moduleName :: (mark .dot :: identifier offset typeName :: mark .lbrace ::
        (printFields ((name, value) :: fields) ++ [mark .rbrace]) ++ rest), last, diagnostics⟩ = _
    rw [parseNamed_eq]
    have htype := @Consumes.consume (identifier offset typeName) .identifier
      (mark .lbrace :: (printFields ((name, value) :: fields) ++ [mark .rbrace]) ++ rest)
      rfl (by decide) "expected type name after module qualifier"
    have hdot := @Consumes.advance (mark .dot) (identifier offset typeName :: mark .lbrace ::
      (printFields ((name, value) :: fields) ++ [mark .rbrace]) ++ rest) nofun
    have hname := @Consumes.advance (identifier 0 moduleName) (mark .dot ::
      identifier offset typeName :: mark .lbrace ::
      (printFields ((name, value) :: fields) ++ [mark .rbrace]) ++ rest) nofun
    exact (hname.bind_cons (hdot.bind_cons (htype.bind_cons hliteral.map))) last diagnostics

/-! If expressions. -/

/-- The tokens behind `if` are read as the tree, whatever stands behind them. -/
def ReadIf (tokens : List Token) (offset : Nat) (tree : ExprTree) : Prop :=
  ∀ room rest fuel, (tokens ++ rest).length < room → (tokens ++ rest).length < fuel →
    Consumes (parseIfExpression (parseExpressionWith room) fuel offset) tokens rest (some tree)

theorem consumes_branch (hwhole : Whole tokens tree) {room : Nat} {rest : List Token}
    (hroom : (tokens ++ mark .rbrace :: rest).length < room) (message : String) :
    Consumes (parseIfBranch (parseExpressionWith room) message)
      (mark .lbrace :: (tokens ++ [mark .rbrace])) rest (some tree) := by
  refine .bind_cons (.consume rfl (by decide) _) (.bind (hwhole.closed hroom rfl nofun) ?_)
  exact .bind_cons (.consume rfl (by decide) _) (.pure _ rest)

section If

variable {condition thenExpr elseExpr : ExprTree} {behind : List Token}

/-- Up to the branch behind `else`. -/
theorem ReadIf.of_branch {offset : Nat} (hcondition : Whole (printExpr condition) condition)
    (hthen : Whole (printExpr thenExpr) thenExpr)
    (hbranch : ∀ room rest fuel, (behind ++ rest).length < room → (behind ++ rest).length < fuel →
      Consumes (do
        if ← check .if then
          let elseIf ← advance
          let elseExpr ← parseIfExpression (parseExpressionWith room) fuel elseIf.offset
          return elseExpr.map (ExprTree.ifExpr offset condition thenExpr)
        else
          let elseExpr ← parseIfBranch (parseExpressionWith room)
            "expected '\x7b' or nested 'if' after 'else'"
          return elseExpr.map (ExprTree.ifExpr offset condition thenExpr) :
            Parser (Option ExprTree))
        behind rest (some (.ifExpr offset condition thenExpr elseExpr))) :
    ReadIf (printExpr condition ++ mark .lbrace :: (printExpr thenExpr ++
        mark .rbrace :: mark .else :: behind)) offset
      (.ifExpr offset condition thenExpr elseExpr) := by
  intro room rest fuel hroom hfuel
  cases fuel with
  | zero => exact absurd hfuel (Nat.not_lt_zero _)
  | succ fuel =>
      simp only [List.cons_append, List.append_assoc] at hroom hfuel
      have hlength : (printExpr thenExpr ++ mark .rbrace :: mark .else :: (behind ++ rest)).length <
          room := by
        simp only [List.length_append, List.length_cons] at hroom ⊢
        omega
      have hbrace : Stops 0 (mark .lbrace :: (printExpr thenExpr ++
          mark .rbrace :: mark .else :: behind) ++ rest) := by
        refine ⟨rfl, ?_⟩
        rw [List.cons_append, List.append_assoc]
        refine hthen.opens.not_fields ?_ _
        exact (show TokenKind.rbrace ≠ .colon by decide)
      refine .bind (hcondition.read.expression ?_ hbrace) ?_
      · simpa only [List.cons_append, List.append_assoc] using hroom
      · have hread := consumes_branch hthen hlength
          "expected '\x7b' after if-expression condition"
        rw [show mark .lbrace :: (printExpr thenExpr ++ mark .rbrace :: mark .else :: behind) =
          mark .lbrace :: (printExpr thenExpr ++ [mark .rbrace]) ++ mark .else :: behind by simp]
        have helse := @Consumes.accept (mark .else) .else (behind ++ rest) rfl (by decide)
        refine hread.bind (helse.bind_cons (hbranch room rest fuel ?_ ?_))
        · simp only [List.length_append, List.length_cons] at hroom ⊢
          omega
        · simp only [List.length_append, List.length_cons] at hfuel ⊢
          omega

/-- `else` with a branch. -/
theorem ReadIf.branch (offset : Nat) (hcondition : Whole (printExpr condition) condition)
    (hthen : Whole (printExpr thenExpr) thenExpr) (helse : Whole (printExpr elseExpr) elseExpr) :
    ReadIf (printExpr condition ++ mark .lbrace :: (printExpr thenExpr ++
        mark .rbrace :: mark .else :: mark .lbrace :: (printExpr elseExpr ++ [mark .rbrace])))
      offset (.ifExpr offset condition thenExpr elseExpr) := by
  refine .of_branch hcondition hthen fun room rest fuel hroom _ => .check false rfl ?_
  refine (consumes_branch helse ?_ _).map
  simp only [List.cons_append, List.append_assoc, List.nil_append, List.length_cons] at hroom
  omega

/-- `else if`. -/
theorem ReadIf.chain (offset next : Nat) (hcondition : Whole (printExpr condition) condition)
    (hthen : Whole (printExpr thenExpr) thenExpr) (helse : ReadIf tokens next elseExpr) :
    ReadIf (printExpr condition ++ mark .lbrace :: (printExpr thenExpr ++
        mark .rbrace :: mark .else :: keyword .if next :: tokens))
      offset (.ifExpr offset condition thenExpr elseExpr) := by
  refine .of_branch hcondition hthen fun room rest fuel hroom hfuel => .check true rfl ?_
  rw [List.cons_append, List.length_cons] at hroom hfuel
  refine .bind_cons (.advance nofun) ?_
  exact (helse room rest fuel (Nat.lt_of_succ_lt hroom) (Nat.lt_of_succ_lt hfuel)).map

end If

theorem ReadIf.base {offset : Nat} (hread : ReadIf tokens offset tree) :
    ReadBase (keyword .if offset :: tokens) tree := by
  refine .of_primary fun room rest hroom _ => .current_cons (.bind_cons (.advance nofun) ?_)
  rw [List.cons_append, List.length_cons] at hroom
  intro last diagnostics
  exact hread room rest _ (Nat.lt_of_succ_le hroom) (Nat.lt_succ_self _) last diagnostics

end Parse

end Cnegative
