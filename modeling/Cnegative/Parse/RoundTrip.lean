import Cnegative.Parse.Compound

namespace Cnegative

namespace Parse

/-! Every tree of the surface language is read back from its tokens. -/

theorem level_le (tree : ExprTree) : level tree ≤ 8 := by
  cases tree with
  | binary offset op left right => exact Nat.le_trans (operatorLevel_range op).2 (by decide)
  | ok => exact Nat.zero_le 8
  | unary => exact Nat.le_succ 7
  | _ => exact Nat.le_refl 8

/-- The tokens of a tree are read as the tree, at its level of the grammar. -/
structure ReadsBack (tree : ExprTree) : Prop where
  opens : Opens (level tree) (printExpr tree)
  read : ReadAs (level tree) (printExpr tree) tree
  /-- Behind `else`, an if expression stands without braces. -/
  chained : isIf tree = true → ∃ offset tokens,
    printExpr tree = keyword .if offset :: tokens ∧ ReadIf tokens offset tree

namespace ReadsBack

variable {tree left right : ExprTree}

theorem whole (hreads : ReadsBack tree) : Whole (printExpr tree) tree where
  read := hreads.read.looser (Nat.zero_le _) (level_le tree) hreads.opens
  opens := hreads.opens.mono (Nat.zero_le _)

/-- An operand, in parentheses where its level is too loose. -/
theorem operand (hreads : ReadsBack tree) {required : Nat} (hrequired : required ≤ 8) :
    Opens required (within required tree (printExpr tree)) ∧
      ReadAs required (within required tree (printExpr tree)) tree := by
  unfold within
  split
  · have hopens : Opens 8 (mark .lparen :: (printExpr tree ++ [mark .rparen])) := ⟨rfl, nofun⟩
    have hread : ReadAs 8 (mark .lparen :: (printExpr tree ++ [mark .rparen])) tree :=
      hreads.whole.parenthesized
    exact ⟨hopens.mono hrequired, hread.looser hrequired (Nat.le_refl 8) hopens⟩
  · rename_i hlevel
    have hle := Nat.le_of_not_lt hlevel
    exact ⟨hreads.opens.mono hle, hreads.read.looser hle (level_le tree) hreads.opens⟩

theorem ok (offset : Nat) (hreads : ReadsBack tree) : ReadsBack (.ok offset tree) where
  opens := ⟨rfl, nofun⟩
  read := hreads.whole.read.ok offset
  chained := nofun

theorem unary (offset : Nat) (op : UnaryTree) (hreads : ReadsBack tree) :
    ReadsBack (.unary offset op tree) where
  opens := by cases op <;> exact ⟨rfl, nofun⟩
  read := ReadUnary.unary offset (hreads.operand (show 7 ≤ 8 by decide)).2
  chained := nofun

theorem readAs_chain (op : BinaryOp) {tokens : List Token} :
    ReadAs (operatorLevel op) tokens tree = ReadChain (operatorLevel op) tokens tree := by
  cases op <;> rfl

theorem binary (offset : Nat) (op : BinaryOp) (hleft : ReadsBack left) (hright : ReadsBack right) :
    ReadsBack (.binary offset op left right) where
  opens := by
    have hlevel := (operatorLevel_range op).2
    have hfirst := (hleft.operand (show operatorLevel op ≤ 8 by omega)).1
    exact hfirst.append (operatorKind_ne op).2.2.2
  read := by
    have hlevel := (operatorLevel_range op).2
    have hfirst := (hleft.operand (show operatorLevel op ≤ 8 by omega)).2
    have hsecond := (hright.operand (show operatorLevel op + 1 ≤ 8 by omega)).2
    rw [readAs_chain] at hfirst
    exact (readAs_chain op).mpr (hfirst.binary offset (hsecond.readAt (by omega)))
  chained := nofun

/-! Trees that a postfix may follow. -/

theorem of_base (hlevel : level tree = 8) (hif : isIf tree = false)
    (hopens : Opens 8 (printExpr tree)) (hread : ReadBase (printExpr tree) tree) :
    ReadsBack tree where
  opens := by rwa [hlevel]
  read := by rwa [hlevel]
  chained := fun htrue => nomatch hif.symm.trans htrue

theorem int (offset : Nat) {value : BitVec 64} (hvalue : 0 ≤ value.toInt) :
    ReadsBack (.int offset value) :=
  .of_base rfl rfl ⟨rfl, nofun⟩ (readBase_int offset hvalue)

theorem bool (offset : Nat) (value : Bool) : ReadsBack (.bool offset value) := by
  refine .of_base rfl rfl ?_ (readBase_bool offset value)
  cases value <;> exact ⟨rfl, nofun⟩

theorem call {arguments : List ExprTree} (hreads : ReadsBack tree)
    (harguments : ItemsRead arguments) : ReadsBack (.call tree.offset tree arguments) :=
  have hbase := hreads.operand (Nat.le_refl 8)
  .of_base rfl rfl (hbase.1.append nofun) (ReadBase.call hbase.2 harguments)

theorem index {index : ExprTree} (hreads : ReadsBack tree) (hindex : ReadsBack index) :
    ReadsBack (.index tree.offset tree index) :=
  have hbase := hreads.operand (Nat.le_refl 8)
  .of_base rfl rfl (hbase.1.append nofun) (ReadBase.index hbase.2 hindex.whole)

theorem sliceView {start stop : Option ExprTree} (hreads : ReadsBack tree)
    (hstart : BoundRead start) (hstop : BoundRead stop) :
    ReadsBack (.sliceView tree.offset tree start stop) :=
  have hbase := hreads.operand (Nat.le_refl 8)
  .of_base rfl rfl (hbase.1.append nofun) (ReadBase.sliceView hbase.2 hstart hstop)

theorem field (hreads : ReadsBack tree) (name : Text) : ReadsBack (.field tree.offset tree name) :=
  have hbase := hreads.operand (Nat.le_refl 8)
  .of_base rfl rfl (hbase.1.append nofun) (ReadBase.field hbase.2 name)

theorem arrayLiteral (offset : Nat) {items : List ExprTree} (hitems : ItemsRead items) :
    ReadsBack (.arrayLiteral offset items none) :=
  .of_base rfl rfl ⟨rfl, nofun⟩ (ReadBase.arrayLiteral offset hitems)

theorem repeatLiteral (offset : Nat) {item count : ExprTree}
    (hitem : Whole (printExpr item) item) (hcount : Whole (printExpr count) count) :
    ReadsBack (.arrayLiteral offset [item] (some count)) := by
  refine .of_base rfl rfl ⟨rfl, nofun⟩ ?_
  have hread := ReadBase.repeatLiteral offset hitem hcount
  simpa only [printExpr, printItems, printMore, printCount, List.append_nil,
    List.cons_append] using hread

theorem structLiteral (offset : Nat) (moduleName typeName : Text)
    {fields : List (Text × ExprTree)} (hne : fields ≠ []) (hfields : FieldsRead fields) :
    ReadsBack (.structLiteral offset moduleName typeName fields) := by
  refine .of_base rfl rfl ?_ (ReadBase.structLiteral offset moduleName typeName hne hfields)
  unfold printExpr printQualifier
  split <;> exact ⟨rfl, nofun⟩

theorem ifExpr (offset : Nat) {condition thenExpr elseExpr : ExprTree}
    (hcondition : ReadsBack condition) (hthen : ReadsBack thenExpr) (helse : ReadsBack elseExpr) :
    ReadsBack (.ifExpr offset condition thenExpr elseExpr) := by
  have hif : ∃ tokens, printExpr (.ifExpr offset condition thenExpr elseExpr) =
      keyword .if offset :: tokens ∧
        ReadIf tokens offset (.ifExpr offset condition thenExpr elseExpr) := by
    refine ⟨_, rfl, ?_⟩
    split
    · rename_i hchained
      obtain ⟨next, tokens, hprint, htail⟩ := helse.chained hchained
      rw [hprint]
      exact .chain offset next hcondition.whole hthen.whole htail
    · exact .branch offset hcondition.whole hthen.whole helse.whole
  obtain ⟨tokens, hprint, htail⟩ := hif
  have hread := htail.base
  rw [← hprint] at hread
  have hopens : Opens 8 (printExpr (.ifExpr offset condition thenExpr elseExpr)) := by
    rw [hprint]
    exact ⟨rfl, nofun⟩
  exact ⟨hopens, hread, fun _ => ⟨offset, tokens, hprint, htail⟩⟩

end ReadsBack

/-! Every constructor in every place, by the structure of the tree. -/

mutual

theorem readsBack_expr : ∀ tree : ExprTree, isSurface tree = true → ReadsBack tree
  | .int offset value, hsurface => .int offset (of_decide_eq_true hsurface)
  | .bool offset value, _ => .bool offset value
  | .null offset, _ => .of_base rfl rfl ⟨rfl, nofun⟩ (readBase_null offset)
  | .err offset, _ => .of_base rfl rfl ⟨rfl, nofun⟩ (readBase_err offset)
  | .name offset name, _ => .of_base rfl rfl ⟨rfl, nofun⟩ (readBase_name offset name)
  | .ok offset value, hsurface => (readsBack_expr value hsurface).ok offset
  | .unary offset op operand, hsurface => (readsBack_expr operand hsurface).unary offset op
  | .binary offset op left right, hsurface => by
      rw [isSurface, Bool.and_eq_true] at hsurface
      exact .binary offset op (readsBack_expr left hsurface.1) (readsBack_expr right hsurface.2)
  | .ifExpr offset condition thenExpr elseExpr, hsurface => by
      rw [isSurface, Bool.and_eq_true, Bool.and_eq_true] at hsurface
      exact .ifExpr offset (readsBack_expr condition hsurface.1)
        (readsBack_expr thenExpr hsurface.2.1) (readsBack_expr elseExpr hsurface.2.2)
  | .call offset callee arguments, hsurface => by
      rw [isSurface, Bool.and_eq_true, Bool.and_eq_true, decide_eq_true_eq] at hsurface
      obtain ⟨rfl, hcallee, harguments⟩ := hsurface
      exact .call (readsBack_expr callee hcallee) (readsBack_items arguments harguments)
  | .arrayLiteral offset items none, hsurface =>
      .arrayLiteral offset (readsBack_items items hsurface)
  | .arrayLiteral offset items (some count), hsurface => by
      rw [isSurface, Bool.and_eq_true, Bool.and_eq_true, decide_eq_true_eq] at hsurface
      obtain ⟨hlength, hitems, hcount⟩ := hsurface
      have hread := readsBack_items items hitems
      have hrepeat := readsBack_expr count hcount
      obtain ⟨item, rfl⟩ := List.length_eq_one_iff.mp hlength
      exact .repeatLiteral offset (hread item List.mem_cons_self) hrepeat.whole
  | .structLiteral offset moduleName typeName fields, hsurface => by
      rw [isSurface, Bool.and_eq_true] at hsurface
      refine .structLiteral offset moduleName typeName ?_ (readsBack_fields fields hsurface.2)
      rintro rfl
      exact nomatch hsurface.1
  | .index offset base index, hsurface => by
      rw [isSurface, Bool.and_eq_true, Bool.and_eq_true, decide_eq_true_eq] at hsurface
      obtain ⟨rfl, hbase, hindex⟩ := hsurface
      exact .index (readsBack_expr base hbase) (readsBack_expr index hindex)
  | .sliceView offset base start stop, hsurface => by
      rw [isSurface, Bool.and_eq_true, Bool.and_eq_true, Bool.and_eq_true,
        decide_eq_true_eq] at hsurface
      obtain ⟨rfl, hbase, hstart, hstop⟩ := hsurface
      exact .sliceView (readsBack_expr base hbase) (readsBack_bound start hstart)
        (readsBack_bound stop hstop)
  | .field offset base fieldName, hsurface => by
      rw [isSurface, Bool.and_eq_true, decide_eq_true_eq] at hsurface
      obtain ⟨rfl, hbase⟩ := hsurface
      exact .field (readsBack_expr base hbase) fieldName

theorem readsBack_items : ∀ items : List ExprTree, itemsSurface items = true → ItemsRead items
  | [], _ => nofun
  | item :: rest, hsurface => by
      rw [itemsSurface, Bool.and_eq_true] at hsurface
      exact List.forall_mem_cons.mpr
        ⟨(readsBack_expr item hsurface.1).whole, readsBack_items rest hsurface.2⟩

theorem readsBack_bound : ∀ bound : Option ExprTree, boundSurface bound = true → BoundRead bound
  | none, _ => nofun
  | some bound, hsurface => by
      rintro tree ⟨⟩
      exact (readsBack_expr bound hsurface).whole

theorem readsBack_fields : ∀ fields : List (Text × ExprTree), fieldsSurface fields = true →
    FieldsRead fields
  | [], _ => nofun
  | (name, value) :: rest, hsurface => by
      rw [fieldsSurface, Bool.and_eq_true] at hsurface
      exact List.forall_mem_cons.mpr
        ⟨(readsBack_expr value hsurface.1).whole, readsBack_fields rest hsurface.2⟩

end

/-- A tree of the surface language comes back from its tokens, which are read to the last
one and no further, in front of anything that does not go on with an expression. -/
theorem parse_print {tree : ExprTree} (hsurface : isSurface tree = true)
    (last : { token : Token // token.kind = .eof }) (diagnostics : List Diagnostic) :
    parseExpression ⟨printExpr tree, last, diagnostics⟩ =
        .done (some tree) ⟨[], last, diagnostics⟩ ∧
      ∀ rest, Stops 0 rest → parseExpression ⟨printExpr tree ++ rest, last, diagnostics⟩ =
        .done (some tree) ⟨rest, last, diagnostics⟩ := by
  have hwhole := (readsBack_expr tree hsurface).whole
  have hparse : ∀ rest, Stops 0 rest →
      parseExpression ⟨printExpr tree ++ rest, last, diagnostics⟩ =
        .done (some tree) ⟨rest, last, diagnostics⟩ := fun rest hstops =>
    hwhole.read.expression (Nat.lt_succ_self _) hstops last diagnostics
  refine ⟨?_, hparse⟩
  have hend := hparse [] ⟨rfl, fun hopens => nomatch hopens.1⟩
  rwa [List.append_nil] at hend

/-- `(a + 1) * a` -/
theorem parse_print_product :
    parseExpression ⟨printExpr (.binary 8 .mul (.binary 3 .add (.name 1 (Name.text "a"))
        (.int 5 1)) (.name 10 (Name.text "a"))), ⟨keyword .eof 11, rfl⟩, []⟩ =
      .done (some (.binary 8 .mul (.binary 3 .add (.name 1 (Name.text "a")) (.int 5 1))
        (.name 10 (Name.text "a")))) ⟨[], ⟨keyword .eof 11, rfl⟩, []⟩ :=
  (parse_print (by decide) ⟨keyword .eof 11, rfl⟩ []).1

example : (printExpr (.binary 8 .mul (.binary 3 .add (.name 1 (Name.text "a")) (.int 5 1))
    (.name 10 (Name.text "a")))).map Token.kind =
      [.lparen, .identifier, .plus, .intLiteral, .rparen, .star, .identifier] := by decide

end Parse

end Cnegative
