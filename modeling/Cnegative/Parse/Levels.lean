import Cnegative.Parse.Consumes

namespace Cnegative

namespace Parse

/-! The levels of the grammar, from what is read at the tightest one. -/

section Levels

variable (expr : Parser (Option ExprTree))

def levelParser : Nat → Parser (Option ExprTree)
  | 0 => parseOkExpression expr
  | 1 => parseOr expr
  | 2 => parseAnd expr
  | 3 => parseEquality expr
  | 4 => parseComparison expr
  | 5 => parseTerm expr
  | 6 => parseFactor expr
  | 7 => parseUnary expr
  | _ => parsePostfix expr

end Levels

def levelKinds : Nat → List TokenKind
  | 1 => [.pipePipe]
  | 2 => [.ampAmp]
  | 3 => [.equalEqual, .bangEqual]
  | 4 => [.less, .lessEqual, .greater, .greaterEqual]
  | 5 => [.plus, .minus]
  | 6 => [.star, .slash, .percent]
  | _ => []

theorem levelParser_chain (expr : Parser (Option ExprTree)) {m : Nat} (hfirst : 1 ≤ m)
    (hlast : m ≤ 6) :
    levelParser expr m = parseBinaryChain (levelParser expr (m + 1)) (levelKinds m) := by
  interval_cases m <;> rfl

def kindLevel : TokenKind → Option Nat
  | .pipePipe => some 1
  | .ampAmp => some 2
  | .equalEqual | .bangEqual => some 3
  | .less | .lessEqual | .greater | .greaterEqual => some 4
  | .plus | .minus => some 5
  | .star | .slash | .percent => some 6
  | _ => none

/-- A token goes on with an expression that is read at a level. -/
def goesOn (n : Nat) (kind : TokenKind) : Bool :=
  kind == .lparen || kind == .lbracket || kind == .dot ||
    (match kindLevel kind with
      | some m => decide (n ≤ m)
      | none => false)

theorem kindLevel_of_mem {m : Nat} {kind : TokenKind} (hmem : kind ∈ levelKinds m) :
    kindLevel kind = some m := by
  unfold levelKinds at hmem
  split at hmem <;> simp only [List.mem_cons, List.not_mem_nil, or_false] at hmem
  · rw [hmem]; rfl
  · rw [hmem]; rfl
  · rcases hmem with rfl | rfl <;> rfl
  · rcases hmem with rfl | rfl | rfl | rfl <;> rfl
  · rcases hmem with rfl | rfl <;> rfl
  · rcases hmem with rfl | rfl | rfl <;> rfl

theorem goesOn_mono {n m : Nat} {kind : TokenKind} (hle : n ≤ m) (hkind : goesOn n kind = false) :
    goesOn m kind = false := by
  unfold goesOn at *
  cases hlevel : kindLevel kind with
  | none => rwa [hlevel] at hkind
  | some other =>
      rw [hlevel] at hkind
      simp only [Bool.or_eq_false_iff, decide_eq_false_iff_not] at hkind ⊢
      exact ⟨hkind.1, by omega⟩

theorem not_mem_of_goesOn {n m : Nat} {kind : TokenKind} (hle : n ≤ m)
    (hkind : goesOn n kind = false) : kind ∉ levelKinds m := by
  intro hmem
  unfold goesOn at hkind
  rw [kindLevel_of_mem hmem] at hkind
  simp only [Bool.or_eq_false_iff, decide_eq_false_iff_not] at hkind
  exact hkind.2 hle

/-- A brace with the first field of a struct literal. -/
def OpensFields (tokens : List Token) : Prop :=
  kindAt tokens 0 = .lbrace ∧ kindAt tokens 1 = .identifier ∧ kindAt tokens 2 = .colon

/-- What may stand behind an expression that is read at a level. -/
structure Stops (n : Nat) (rest : List Token) : Prop where
  goesOn_eq : goesOn n (kindAt rest 0) = false
  fields : ¬ OpensFields rest

/-- What may stand behind the base of a postfix. -/
structure Loose (rest : List Token) : Prop where
  fields : ¬ OpensFields rest
  dotted : ¬ (kindAt rest 0 = .dot ∧ kindAt rest 1 = .identifier ∧ OpensFields (rest.drop 2))

theorem Stops.mono {n m : Nat} {rest : List Token} (hle : n ≤ m) (hstops : Stops n rest) :
    Stops m rest :=
  ⟨goesOn_mono hle hstops.goesOn_eq, hstops.fields⟩

theorem Stops.loose {n : Nat} {rest : List Token} (hstops : Stops n rest) : Loose rest := by
  refine ⟨hstops.fields, fun hdotted => ?_⟩
  have hstop := hstops.goesOn_eq
  rw [hdotted.1] at hstop
  cases hstop

/-- A token that is neither a brace nor goes on. -/
theorem Stops.of_kind {n : Nat} {token : Token} {rest : List Token}
    (hgoesOn : goesOn n token.kind = false) (hbrace : token.kind ≠ .lbrace) :
    Stops n (token :: rest) :=
  ⟨hgoesOn, fun hopens => hbrace hopens.1⟩

theorem Loose.of_kind {token : Token} {rest : List Token} (hbrace : token.kind ≠ .lbrace)
    (hdot : token.kind ≠ .dot) : Loose (token :: rest) :=
  ⟨fun hopens => hbrace hopens.1, fun hdotted => hdot hdotted.1⟩

/-! What it is for tokens to be read as a tree. -/

/-- Behind a token, `cn_parse_expression` may be `parseExpressionWith` for what is left. -/
def ReadAt (n : Nat) (tokens : List Token) (tree : ExprTree) : Prop :=
  ∀ room rest, (tokens ++ rest).length ≤ room → Stops n rest →
    Consumes (levelParser (parseExpressionWith room) n) tokens rest (some tree)

/-- A first operand, and rounds of the loop over the operators of the level. -/
def ReadChain (m : Nat) (tokens : List Token) (tree : ExprTree) : Prop :=
  ∀ room rest, (tokens ++ rest).length ≤ room → Stops (m + 1) rest →
    ∃ first leading trailing, tokens = leading ++ trailing ∧
      Consumes (levelParser (parseExpressionWith room) (m + 1)) leading (trailing ++ rest)
        (some first) ∧
      LoopReads (chainRound (levelParser (parseExpressionWith room) (m + 1)) (levelKinds m)) first
        trailing rest tree

def ReadUnary (tokens : List Token) (tree : ExprTree) : Prop :=
  ∀ room rest fuel, (tokens ++ rest).length ≤ room → (tokens ++ rest).length < fuel →
    Stops 7 rest → Consumes (parseUnaryWith (parseExpressionWith room) fuel) tokens rest (some tree)

/-- A primary expression, and rounds of the loop over postfixes. -/
def ReadBase (tokens : List Token) (tree : ExprTree) : Prop :=
  ∀ room rest, (tokens ++ rest).length ≤ room → Loose rest →
    ∃ first leading trailing, tokens = leading ++ trailing ∧
      Consumes (parsePrimary (parseExpressionWith room)) leading (trailing ++ rest)
        (some first) ∧
      LoopReads (postfixRound (parseExpressionWith room)) first trailing rest tree

def ReadAs : Nat → List Token → ExprTree → Prop
  | 0 => ReadAt 0
  | 7 => ReadUnary
  | 8 => ReadBase
  | m => ReadChain m

/-! The first tokens of an expression. -/

def opensPrimary : TokenKind → Bool
  | .intLiteral | .true | .false | .null | .err | .if | .identifier | .lbracket | .lparen => true
  | _ => false

def startsAt (n : Nat) (kind : TokenKind) : Bool :=
  opensPrimary kind || (decide (n ≤ 7) && (unaryTree kind).isSome) ||
    (decide (n = 0) && kind == .ok)

/-- The tokens start as an expression of a level does, and not with a field of a literal. -/
structure Opens (n : Nat) (tokens : List Token) : Prop where
  starts : startsAt n (kindAt tokens 0) = true
  label : kindAt tokens 0 = .identifier → kindAt tokens 1 ≠ .colon

theorem startsAt_mono {n m : Nat} {kind : TokenKind} (hle : n ≤ m)
    (hstarts : startsAt m kind = true) : startsAt n kind = true := by
  unfold startsAt at *
  simp only [Bool.or_eq_true, Bool.and_eq_true, decide_eq_true_eq] at *
  rcases hstarts with (hprimary | ⟨hm, hunary⟩) | ⟨hm, hok⟩
  · exact Or.inl (Or.inl hprimary)
  · exact Or.inl (Or.inr ⟨by omega, hunary⟩)
  · exact Or.inr ⟨by omega, hok⟩

theorem Opens.mono {n m : Nat} {tokens : List Token} (hle : n ≤ m) (hopens : Opens m tokens) :
    Opens n tokens :=
  ⟨startsAt_mono hle hopens.starts, hopens.label⟩

theorem Opens.ne_nil {n : Nat} {tokens : List Token} (hopens : Opens n tokens) : tokens ≠ [] := by
  rintro rfl
  have hstarts := hopens.starts
  simp [startsAt, opensPrimary, unaryTree] at hstarts

theorem kindAt_append_zero {tokens : List Token} (hne : tokens ≠ []) (rest : List Token) :
    kindAt (tokens ++ rest) 0 = kindAt tokens 0 := by
  cases tokens with
  | nil => exact absurd rfl hne
  | cons token tokens => rfl

theorem Opens.kindAt_eq {n : Nat} {tokens : List Token} (hopens : Opens n tokens)
    (rest : List Token) : kindAt (tokens ++ rest) 0 = kindAt tokens 0 :=
  kindAt_append_zero hopens.ne_nil rest

theorem Opens.append {n : Nat} {tokens rest : List Token} (hopens : Opens n tokens)
    (hrest : kindAt rest 0 ≠ .colon) : Opens n (tokens ++ rest) := by
  refine ⟨by rw [hopens.kindAt_eq]; exact hopens.starts, fun hidentifier => ?_⟩
  rw [hopens.kindAt_eq] at hidentifier
  have hlabel := hopens.label hidentifier
  cases tokens with
  | nil => exact absurd rfl hopens.ne_nil
  | cons token tokens =>
      cases tokens with
      | nil => exact hrest
      | cons next tokens => exact hlabel

theorem Opens.not_fields {n : Nat} {tokens rest : List Token} (hopens : Opens n tokens)
    (hrest : kindAt rest 0 ≠ .colon) (brace : Token) : ¬ OpensFields (brace :: (tokens ++ rest)) :=
  fun hfields => (hopens.append hrest).label hfields.2.1 hfields.2.2

end Parse

end Cnegative
