import Cnegative.Parse.Climb
import Cnegative.Parse.Literal

namespace Cnegative

namespace Parse

/-! Whole expressions, primary ones and lists. -/

variable {tokens : List Token} {tree : ExprTree}

/-- Tokens that `cn_parse_expression` reads as the tree. -/
structure Whole (tokens : List Token) (tree : ExprTree) : Prop where
  read : ReadAt 0 tokens tree
  opens : Opens 0 tokens

/-- An expression in front of a token that ends it. -/
theorem Whole.closed (hwhole : Whole tokens tree) {room : Nat} {rest : List Token}
    (hroom : (tokens ++ rest).length < room) (hgoesOn : goesOn 0 (kindAt rest 0) = false)
    (hbrace : kindAt rest 0 ≠ .lbrace) :
    Consumes (parseExpressionWith room) tokens rest (some tree) :=
  hwhole.read.expression hroom ⟨hgoesOn, fun hopens => hbrace hopens.1⟩

theorem Whole.kindAt_ne (hwhole : Whole tokens tree) {kind : TokenKind} (rest : List Token)
    (hkind : startsAt 0 kind = false) : kindAt (tokens ++ rest) 0 ≠ kind := by
  rw [hwhole.opens.kindAt_eq]
  rintro rfl
  rw [hwhole.opens.starts] at hkind
  cases hkind

/-! Primary expressions. -/

theorem ReadBase.of_primary
    (hread : ∀ room rest, (tokens ++ rest).length ≤ room → Loose rest →
      Consumes (parsePrimary (parseExpressionWith room)) tokens rest (some tree)) :
    ReadBase tokens tree :=
  fun room rest hroom hloose => ⟨tree, tokens, [], (List.append_nil _).symm,
    hread room rest hroom hloose, .refl _ tree rest⟩

theorem shortest_nonneg {number : Int} (hnonneg : 0 ≤ number) :
    Numeral.decimal? (Numeral.shortest number) = some number.natAbs := by
  have hshortest : Numeral.shortest number =
      (Library.Decimal.digits number.natAbs).map fun digit => UInt8.ofNat (48 + digit) :=
    if_neg (Int.not_lt.mpr hnonneg)
  rw [hshortest, Numeral.decimal?_digits]

/-- The printed digits are read as the number. -/
theorem literalValue_shortest {value : BitVec 64} (hvalue : 0 ≤ value.toInt) :
    literalValue (Numeral.shortest value.toInt) = value := by
  have hdecimal := shortest_nonneg hvalue
  unfold Numeral.decimal? at hdecimal
  split at hdecimal
  · rename_i hdigits
    rw [literalValue_eq hdigits.2, exactValue, Option.some.inj hdecimal]
    apply BitVec.eq_of_toInt_eq
    have hword := Library.Signed.inWord_toInt value
    unfold Library.Signed.InWord at hword
    rw [BitVec.toInt_ofNat', Int.bmod_eq_of_le_mul_two (by omega) (by omega)]
    omega
  · cases hdecimal

theorem readBase_int (offset : Nat) {value : BitVec 64} (hvalue : 0 ≤ value.toInt) :
    ReadBase [⟨.intLiteral, offset, 1, 1, Numeral.shortest value.toInt⟩] (.int offset value) := by
  refine .of_primary fun room rest _ _ last diagnostics => ?_
  rw [List.singleton_append, parsePrimary_intLiteral _ rfl, literalValue_shortest hvalue]

theorem readBase_bool (offset : Nat) (value : Bool) :
    ReadBase [keyword (if value then .true else .false) offset] (.bool offset value) := by
  refine .of_primary fun room rest _ _ => .current_cons ?_
  cases value with
  | true => exact .bind_cons (.advance nofun) (.pure _ rest)
  | false => exact .bind_cons (.advance nofun) (.pure _ rest)

theorem readBase_null (offset : Nat) : ReadBase [keyword .null offset] (.null offset) := by
  refine .of_primary fun room rest _ _ => .current_cons ?_
  exact .bind_cons (.advance nofun) (.pure _ rest)

theorem readBase_err (offset : Nat) : ReadBase [keyword .err offset] (.err offset) := by
  refine .of_primary fun room rest _ _ => .current_cons ?_
  exact .bind_cons (.advance nofun) (.pure _ rest)

theorem Whole.parenthesized (hwhole : Whole tokens tree) :
    ReadBase (mark .lparen :: (tokens ++ [mark .rparen])) tree := by
  refine .of_primary fun room rest hroom _ => .current_cons ?_
  simp only [List.length_cons, List.length_append, List.length_nil] at hroom
  refine .bind_cons (.advance nofun) (.bind (hwhole.closed ?_ rfl nofun) ?_)
  · simp only [List.length_append, List.length_cons, List.length_nil]
    omega
  · exact .bind_cons (.consume rfl (by decide) _) (.pure _ rest)

/-! Names, which a brace with a field behind them turns into a struct literal. -/

theorem kindAt_drop (tokens : List Token) (count distance : Nat) :
    kindAt (tokens.drop count) distance = kindAt tokens (count + distance) := by
  unfold kindAt
  rw [List.getElem?_drop]

/-- The two lookaheads of the identifier case. -/
theorem parseNamed_eq (expr : Parser (Option ExprTree)) (token : Token) (rest : List Token)
    (last : { token : Token // token.kind = .eof }) (diagnostics : List Diagnostic) :
    parseNamed expr token ⟨token :: rest, last, diagnostics⟩ =
      (do
        let _ ← advance
        if kindAt rest 0 == .dot && kindAt rest 1 == .identifier && kindAt rest 2 == .lbrace &&
            kindAt rest 3 == .identifier && kindAt rest 4 == .colon then
          let _ ← advance
          match ← consume .identifier "expected type name after module qualifier" with
          | none => return none
          | some typeToken =>
              let literal ← parseStructLiteral expr token.lexeme typeToken
              return some literal
        else if kindAt rest 0 == .lbrace && kindAt rest 1 == .identifier &&
            kindAt rest 2 == .colon then
          let literal ← parseStructLiteral expr [] token
          return some literal
        else return some (.name token.offset token.lexeme) : Parser (Option ExprTree))
        ⟨token :: rest, last, diagnostics⟩ := by
  unfold parseNamed
  rw [peek_kind, peek_kind, peek_kind, peek_kind, peek_kind]
  rfl

theorem readBase_name (offset : Nat) (name : Text) :
    ReadBase [identifier offset name] (.name offset name) := by
  refine .of_primary fun room rest _ hloose last diagnostics => ?_
  have hlocal : ¬ (kindAt rest 0 == .lbrace && kindAt rest 1 == .identifier &&
      kindAt rest 2 == .colon) = true := by
    simp only [Bool.and_eq_true, beq_iff_eq]
    rintro ⟨⟨hbrace, hname⟩, hcolon⟩
    exact hloose.fields ⟨hbrace, hname, hcolon⟩
  have hqualified : ¬ (kindAt rest 0 == .dot && kindAt rest 1 == .identifier &&
      kindAt rest 2 == .lbrace && kindAt rest 3 == .identifier && kindAt rest 4 == .colon) =
        true := by
    simp only [Bool.and_eq_true, beq_iff_eq]
    rintro ⟨⟨⟨⟨hdot, htype⟩, hbrace⟩, hname⟩, hcolon⟩
    refine hloose.dotted ⟨hdot, htype, ?_⟩
    unfold OpensFields
    rw [kindAt_drop, kindAt_drop, kindAt_drop]
    exact ⟨hbrace, hname, hcolon⟩
  change parseNamed (parseExpressionWith room) (identifier offset name)
    ⟨identifier offset name :: rest, last, diagnostics⟩ = _
  rw [parseNamed_eq, if_neg hqualified, if_neg hlocal]
  rfl

/-! Lists of expressions. -/

def ItemsRead (items : List ExprTree) : Prop := ∀ item ∈ items, Whole (printExpr item) item

/-- What stands behind an item of a list. -/
theorem stops_printMore {items : List ExprTree} {rest : List Token} (hstops : Stops 0 rest) :
    Stops 0 (printMore items ++ rest) := by
  cases items with
  | nil => exact hstops
  | cons item items =>
      rw [printMore]
      exact .of_kind rfl nofun

theorem loopReads_items {items : List ExprTree} (hitems : ItemsRead items) {room : Nat}
    {rest : List Token} (hstops : Stops 0 rest) (carried : List ExprTree)
    (hroom : (printMore items ++ rest).length ≤ room) :
    LoopReads (itemRound (parseExpressionWith room)) carried (printMore items) rest
      (carried ++ items) := by
  induction items generalizing carried with
  | nil =>
      rw [List.append_nil]
      exact .refl _ carried rest
  | cons item items ih =>
      have hitem := hitems item List.mem_cons_self
      rw [printMore] at hroom ⊢
      simp only [List.cons_append, List.append_assoc, List.length_cons] at hroom
      rw [← List.cons_append]
      have hround : LoopReads (itemRound (parseExpressionWith room)) carried
          (mark .comma :: printExpr item) (printMore items ++ rest) (carried ++ [item]) := by
        refine .round (by simp) (.bind_cons (.accept rfl (by decide)) ?_)
        exact .bind_last (hitem.read.expression (by omega) (stops_printMore hstops)) (.pure _ _)
      have hlength : (printMore items ++ rest).length ≤ room := by
        rw [List.length_append] at hroom
        omega
      have hrest := ih (fun other hother => hitems other (List.mem_cons_of_mem _ hother))
        (carried ++ [item]) hlength
      rw [List.append_assoc] at hrest
      exact hround.trans hrest

theorem consumes_items {items : List ExprTree} (hitems : ItemsRead items) {room : Nat}
    {rest : List Token} (hstops : Stops 0 rest) (hcomma : kindAt rest 0 ≠ .comma)
    (first : ExprTree) (hroom : (printMore items ++ rest).length ≤ room) :
    Consumes (loopTokens (itemRound (parseExpressionWith room)) [first]) (printMore items) rest
      (first :: items, true) :=
  (loopReads_items hitems hstops [first] hroom).finish
    (.bind_nil (.accept_other hcomma) (.pure _ rest))

/-- What is seen of a list in front of the mark that ends it, the first item, and the loop. -/
theorem consumes_list {close : TokenKind} (hstarts : startsAt 0 close = false)
    (hgoesOn : goesOn 0 close = false) (hbrace : close ≠ .lbrace) (hcomma : close ≠ .comma)
    {first : ExprTree} {items : List ExprTree} (hitems : ItemsRead (first :: items)) {room : Nat}
    {rest : List Token}
    (hroom : (printExpr first ++ (printMore items ++ mark close :: rest)).length < room) :
    (kindAt (printExpr first ++ (printMore items ++ [mark close]) ++ rest) 0 == close) = false ∧
      Consumes (parseExpressionWith room) (printExpr first)
        (printMore items ++ [mark close] ++ rest) (some first) ∧
      Consumes (loopTokens (itemRound (parseExpressionWith room)) [first]) (printMore items)
        ([mark close] ++ rest) (first :: items, true) := by
  have hfirst := hitems first List.mem_cons_self
  have hrest : ItemsRead items := fun item hitem => hitems item (List.mem_cons_of_mem _ hitem)
  have hclose : Stops 0 (mark close :: rest) := .of_kind hgoesOn hbrace
  have hmore : (printMore items ++ mark close :: rest).length ≤ room := by
    rw [List.length_append] at hroom
    omega
  refine ⟨?_, ?_, consumes_items hrest hclose hcomma first hmore⟩
  · rw [beq_eq_false_iff_ne, List.append_assoc]
    exact hfirst.kindAt_ne _ hstarts
  · rw [List.append_assoc]
    exact hfirst.read.expression hroom (stops_printMore hclose)

end Parse

end Cnegative
