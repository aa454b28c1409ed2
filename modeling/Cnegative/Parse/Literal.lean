import Cnegative.Backend.Function
import Cnegative.Check.ConstEval
import Cnegative.Check.Expr
import Cnegative.Lex.Tiling
import Cnegative.Lower.Expr
import Cnegative.Parse.Expr
import Cnegative.Runtime.Numeral

namespace Cnegative

/-! The number that an integer literal stands for, and the one that the compiler reads. -/

namespace Lex

def IsNumber (lexeme : Text) : Prop := lexeme ≠ [] ∧ lexeme.all Numeral.isDigit = true

theorem isAsciiDigit_zero : isAsciiDigit 0 = false := by decide

theorem isDigit_of_isAsciiDigit {ch : UInt8} (hch : isAsciiDigit ch = true) :
    Numeral.isDigit ch = true := hch

theorem punctuation_ne_intLiteral {ch : UInt8} : punctuation ch ≠ some .intLiteral := by
  intro hkind
  unfold punctuation at hkind
  split at hkind <;> cases hkind

theorem operator_ne_intLiteral {ch : UInt8} {kinds : TokenKind × TokenKind}
    (hkinds : operator ch = some kinds) : kinds.1 ≠ .intLiteral ∧ kinds.2 ≠ .intLiteral := by
  unfold operator at hkinds
  split at hkinds <;> cases hkinds <;> decide

theorem keywordKind_ne_intLiteral (text : Text) : keywordKind text ≠ .intLiteral := by
  unfold keywordKind
  cases hfind : keywords.find? (fun keyword => Name.text keyword.1 == text) with
  | none => decide
  | some keyword =>
      have hall : ∀ keyword ∈ keywords, keyword.2 ≠ .intLiteral := by decide
      exact hall keyword (List.mem_of_find?_eq_some hfind)

theorem getElem?_slice {source : Text} {start length index : Nat} {ch : UInt8}
    (hget : (slice source start length)[index]? = some ch) :
    index < length ∧ byteAt source (start + index) = ch := by
  unfold slice at hget
  rw [List.getElem?_take] at hget
  split at hget
  · rename_i hlt
    rw [List.getElem?_drop] at hget
    exact ⟨hlt, by rw [byteAt, hget, Option.getD_some]⟩
  · cases hget

/-- What `cn_lexer_scan_number` takes behind a first digit is a number. -/
theorem scanNumber_isNumber {start : Lexer} (hfirst : isAsciiDigit start.peek = true)
    {token : Token} (htoken : (start.scanNumber start.advance).1 = .token token) :
    IsNumber token.lexeme := by
  have hpeek : start.peek ≠ 0 := by
    intro hzero
    rw [hzero, isAsciiDigit_zero] at hfirst
    cases hfirst
  have hindex := Lexer.advance_index hpeek
  have hinside := Lexer.index_lt_of_peek hpeek
  obtain ⟨hle, -, hclass⟩ :=
    @scanTail_spec isAsciiDigit start.advance.source isAsciiDigit_zero start.advance.index
  unfold Lexer.scanNumber at htoken
  obtain rfl := Emitted.token.inj htoken
  dsimp only [Lexer.token, Lexer.moveTo]
  generalize hstop : scanTail isAsciiDigit start.advance.source start.advance.index = stop
    at hle hclass ⊢
  constructor
  · intro hempty
    have hlength := congrArg List.length hempty
    simp only [slice, List.length_take, List.length_drop, List.length_nil] at hlength
    omega
  · rw [List.all_eq_true]
    intro ch hch
    obtain ⟨index, hget⟩ := List.mem_iff_getElem?.mp hch
    obtain ⟨hlt, hbyte⟩ := getElem?_slice hget
    apply isDigit_of_isAsciiDigit
    rw [← hbyte]
    by_cases hzero : index = 0
    · rw [hzero]
      exact hfirst
    · have hdigit := hclass (start.index + index) (by omega) (by omega)
      rwa [Lexer.advance_source] at hdigit

theorem scanToken_isNumber (order : ArgumentOrder) {start : Lexer} {token : Token}
    (htoken : (scanToken order start).1 = .token token) (hkind : token.kind = .intLiteral) :
    IsNumber token.lexeme := by
  simp only [scanToken] at htoken
  split at htoken
  · rename_i kind hpunctuation
    obtain rfl := Emitted.token.inj htoken
    have hnumber : kind = .intLiteral := hkind
    rw [hnumber] at hpunctuation
    exact absurd hpunctuation punctuation_ne_intLiteral
  split at htoken
  · rename_i wide narrow hoperator
    obtain ⟨hwide, hnarrow⟩ := operator_ne_intLiteral hoperator
    obtain rfl := Emitted.token.inj htoken
    dsimp only [Lexer.token] at hkind
    split at hkind
    · exact absurd hkind hwide
    · exact absurd hkind hnarrow
  split at htoken
  · obtain rfl := Emitted.token.inj htoken
    split at hkind <;> cases hkind
  split at htoken
  · unfold Lexer.scanPair at htoken
    dsimp only at htoken
    split at htoken
    · obtain rfl := Emitted.token.inj htoken
      cases hkind
    · cases htoken
  split at htoken
  · unfold Lexer.scanPair at htoken
    dsimp only at htoken
    split at htoken
    · obtain rfl := Emitted.token.inj htoken
      cases hkind
    · cases htoken
  split at htoken
  · unfold Lexer.scanString at htoken
    dsimp only at htoken
    split at htoken
    · cases htoken
    · split at htoken
      · cases htoken
      · obtain rfl := Emitted.token.inj htoken
        cases hkind
  split at htoken
  · unfold Lexer.scanRawString at htoken
    dsimp only at htoken
    split at htoken
    · cases htoken
    · obtain rfl := Emitted.token.inj htoken
      cases hkind
  split at htoken
  · rename_i hdigit
    exact scanNumber_isNumber hdigit htoken
  split at htoken
  · obtain rfl := Emitted.token.inj htoken
    exact absurd hkind (keywordKind_ne_intLiteral _)
  · cases htoken

theorem scanAll_isNumber {order : Nat → ArgumentOrder} (fuel : Nat) {lexer final : Lexer}
    {scans : List Scan} (hrun : scanAll order fuel lexer = some (scans, final)) {scan : Scan}
    (hscan : scan ∈ scans) {token : Token} (htoken : scan.emitted = .token token)
    (hkind : token.kind = .intLiteral) : IsNumber token.lexeme := by
  induction fuel generalizing lexer scans with
  | zero => cases hrun
  | succ fuel ih =>
      simp only [scanAll] at hrun
      split at hrun
      · split at hrun
        · cases hrun
          cases hscan
        · split at hrun
          · cases hrun
          · rename_i rest last hrest
            cases hrun
            rcases List.mem_cons.mp hscan with rfl | hscan
            · exact scanToken_isNumber _ htoken hkind
            · exact ih hrest hscan
      · cases hrun
        cases hscan

theorem tokens_isNumber {order : Nat → ArgumentOrder} {text : Text} {fuel : Nat} {output : Output}
    (hrun : lexerRun order text fuel = some output) {token : Token}
    (htoken : token ∈ output.tokens) (hkind : token.kind = .intLiteral) :
    IsNumber token.lexeme := by
  obtain ⟨⟨scans, final⟩, hscans, rfl⟩ := Option.map_eq_some_iff.mp hrun
  rcases List.mem_append.mp htoken with hscanned | hlast
  · obtain ⟨scan, hscan, hemitted⟩ := List.mem_filterMap.mp hscanned
    split at hemitted
    · rename_i found hfound
      obtain rfl := Option.some.inj hemitted
      exact scanAll_isNumber fuel hscans hscan hfound hkind
    · cases hemitted
  · obtain rfl := List.mem_singleton.mp hlast
    cases hkind

end Lex

namespace Parse

open Check (evalConst)
open Numeral (digitOf isDigit shortest)

def exactValue (digits : Text) : Nat := Library.Decimal.value (digits.map digitOf)

theorem digit_word {digit : UInt8} (hdigit : isDigit digit = true) :
    BitVec.ofNat 64 digit.toNat - 48 = BitVec.ofNat 64 (digitOf digit) := by
  have hle : 48 ≤ digit.toNat := by
    have := (Bool.and_eq_true_iff.mp hdigit).1
    simpa [UInt8.le_iff_toNat_le] using this
  have hsub : digitOf digit = digit.toNat - 48 := by
    rw [digitOf, UInt8.toNat_sub_of_le]
    · rfl
    · rw [UInt8.le_iff_toNat_le]
      exact hle
  have hlt := digit.toNat_lt
  rw [hsub]
  exact (BitVec.ofNat_sub_ofNat_of_le digit.toNat 48 (by decide) hle)

/-- The parser reads the number modulo 2^64. -/
theorem literalValue_eq {digits : Text} (hdigits : digits.all isDigit = true) :
    literalValue digits = BitVec.ofNat 64 (exactValue digits) := by
  have hfold : ∀ acc : BitVec 64,
      digits.foldl (fun value digit => value * 10 + (BitVec.ofNat 64 digit.toNat - 48)) acc =
        (digits.map digitOf).foldl (fun acc digit => acc * 10 + BitVec.ofNat 64 digit) acc := by
    intro acc
    rw [List.foldl_map]
    apply List.foldl_ext
    intro value digit hdigit
    rw [digit_word (List.all_eq_true.mp hdigits digit hdigit)]
  rw [literalValue, hfold, exactValue, Library.Decimal.foldl_ofNat]

theorem literalValue_toInt {digits : Text} (hdigits : digits.all isDigit = true)
    (hbound : exactValue digits ≤ 9223372036854775807) :
    (literalValue digits).toInt = exactValue digits := by
  rw [literalValue_eq hdigits, BitVec.toInt_ofNat']
  exact Int.bmod_eq_of_le_mul_two (by omega) (by omega)

/-- `cn_parse_primary` at an integer literal, which it never diagnoses. -/
theorem parsePrimary_intLiteral (expr : Parser (Option ExprTree)) {token : Token}
    (hkind : token.kind = .intLiteral) (rest : List Token)
    (last : { token : Token // token.kind = .eof }) (diagnostics : List Diagnostic) :
    parsePrimary expr ⟨token :: rest, last, diagnostics⟩ =
      .done (some (.int token.offset (literalValue token.lexeme))) ⟨rest, last, diagnostics⟩ := by
  obtain ⟨kind, offset, line, column, lexeme⟩ := token
  obtain rfl : kind = .intLiteral := hkind
  rfl

/-! A literal on its way through the compiler. -/

section Passage

/-- `%lld` of a constant operand, as `cn_llvm_emit_value_ref` prints it. -/
def constantText (value : Llvm.LlvmValue) : Option Text :=
  match value.data with
  | .int word => some (shortest word.toInt)
  | _ => none

/-- A word is the number in the IR, in the evaluator of sizes and in the text. -/
structure Carries (number : Nat) (word : BitVec 64) : Prop where
  ir : ∀ (ctx : Lower.Context) (constUse : Lower.ConstUse) (scope : Lower.Scope)
    (expected : Option TypeRef), ∃ type value,
      Lower.lowerExpr ctx constUse scope expected (.int word) = some (.int type value) ∧
        value.toInt = number
  size : ∀ (project : Project) (checks : Checker.Resolved ConstDecl → Bool) (fuel : Nat)
    (self : ModuleId), ∃ value,
      evalConst project checks (fuel + 1) self (.int word) = .value value ∧ value.toInt = number
  text : ∀ type, constantText ⟨type, .int word⟩ = some (shortest number)

theorem carries_iff (number : Nat) (word : BitVec 64) :
    Carries number word ↔ word.toInt = number := by
  constructor
  · intro hcarries
    obtain ⟨value, hvalue, hnumber⟩ := hcarries.size (mainProject []) (fun _ => true) 0 0
    obtain rfl := Check.Evaluated.value.inj hvalue
    exact hnumber
  · intro hword
    exact ⟨fun _ _ _ expected => ⟨_, word, rfl, hword⟩, fun _ _ _ _ => ⟨word, rfl, hword⟩,
      fun _ => congrArg (fun value => some (shortest value)) hword⟩

end Passage

section Compiles

variable (expr : Parser (Option ExprTree)) (ctx : Check.Context) (scope : Check.Scope)
  (expected : Option TypeRef) (state : ParserState)

/-- The parser reads `word` at the state and the checker takes it where `expected` is asked
for; neither reports an error. -/
structure Compiles (word : BitVec 64) : Prop where
  parsed : ∃ offset after, parsePrimary expr state = .done (some (.int offset word)) after ∧
    after.diagnostics = state.diagnostics
  checked : (Check.checkExpr ctx scope expected (.int word)).2 = []

/-- The literal at the state is read as the number that it denotes or is diagnosed. -/
structure ExactOrRejected (number : Nat) : Prop where
  exact : ∀ expected word, Compiles expr ctx scope expected state word → Carries number word
  large : 9223372036854775807 < number →
    ∀ expected word, ¬ Compiles expr ctx scope expected state word
  small : (∃ word, Compiles expr ctx scope (some .u8) state word) ↔ number ≤ 255

theorem checkExpr_int (word : BitVec 64) :
    (Check.checkExpr ctx scope expected (.int word)).2 = [] ↔
      (expected = some .u8 → 0 ≤ word.toInt ∧ word.toInt ≤ 255) := by
  unfold Check.checkExpr
  split
  · rename_i hu8
    rw [Check.require_eq_nil, Bool.and_eq_true, decide_eq_true_iff, decide_eq_true_iff]
    exact ⟨fun hrange _ => hrange, fun hrange => hrange hu8⟩
  · rename_i hother
    exact iff_of_true rfl fun hu8 => absurd hu8 hother

end Compiles

/-- What compiles at an integer literal is its value modulo 2^64, where the checker takes it. -/
theorem compiles_iff (expr : Parser (Option ExprTree)) (ctx : Check.Context)
    (scope : Check.Scope) (expected : Option TypeRef) {token : Token}
    (hkind : token.kind = .intLiteral) (rest : List Token)
    (last : { token : Token // token.kind = .eof }) (diagnostics : List Diagnostic)
    (word : BitVec 64) :
    Compiles expr ctx scope expected ⟨token :: rest, last, diagnostics⟩ word ↔
      word = literalValue token.lexeme ∧
        (expected = some .u8 → 0 ≤ word.toInt ∧ word.toInt ≤ 255) := by
  have hparse := parsePrimary_intLiteral expr hkind rest last diagnostics
  constructor
  · rintro ⟨⟨offset, after, hparsed, -⟩, hchecked⟩
    rw [hparse] at hparsed
    obtain ⟨htree, -⟩ := Outcome.done.inj hparsed
    obtain ⟨-, hword⟩ := ExprTree.int.inj (Option.some.inj htree)
    exact ⟨hword.symm, (checkExpr_int ctx scope expected word).mp hchecked⟩
  · rintro ⟨rfl, hrange⟩
    exact ⟨⟨_, _, hparse, rfl⟩, (checkExpr_int ctx scope expected _).mpr hrange⟩

/-- An integer literal of a source is exact or rejected just when it denotes a number of 63
bits. -/
theorem integer_literal_exact_iff {order : Nat → Lex.ArgumentOrder} {text : Text} {fuel : Nat}
    {output : Lex.Output} (hrun : Lex.lexerRun order text fuel = some output) {token : Token}
    (htoken : token ∈ output.tokens) (hkind : token.kind = .intLiteral)
    (expr : Parser (Option ExprTree)) (ctx : Check.Context) (scope : Check.Scope)
    (rest : List Token) (last : { token : Token // token.kind = .eof })
    (diagnostics : List Diagnostic) :
    ExactOrRejected expr ctx scope ⟨token :: rest, last, diagnostics⟩ (exactValue token.lexeme) ↔
      exactValue token.lexeme ≤ 9223372036854775807 := by
  have hnumber := Lex.tokens_isNumber hrun htoken hkind
  have hcompiles := fun expected word =>
    compiles_iff expr ctx scope expected hkind rest last diagnostics word
  constructor
  · intro hexact
    by_contra hlarge
    -- Where no type is asked for, nothing looks at the value.
    refine hexact.large (by omega) none (literalValue token.lexeme) ((hcompiles _ _).mpr ?_)
    exact ⟨rfl, fun hnone => by cases hnone⟩
  · intro hbound
    have hvalue := literalValue_toInt hnumber.2 hbound
    refine ⟨fun expected word hword => ?_, fun hlarge => by omega, ?_⟩
    · obtain ⟨rfl, -⟩ := (hcompiles expected word).mp hword
      exact (carries_iff _ _).mpr hvalue
    · constructor
      · rintro ⟨word, hword⟩
        obtain ⟨rfl, hrange⟩ := (hcompiles _ word).mp hword
        have := (hrange rfl).2
        omega
      · intro hsmall
        refine ⟨literalValue token.lexeme, (hcompiles _ _).mpr ⟨rfl, fun _ => ?_⟩⟩
        omega

def eofToken : { token : Token // token.kind = .eof } := ⟨⟨.eof, 0, 1, 1, []⟩, rfl⟩

theorem integer_literal_exact_byte :
    ExactOrRejected (fun _ => .outOfFuel) ⟨mainProject [], 0⟩ []
        ⟨[⟨.intLiteral, 0, 1, 1, Name.text "255"⟩], eofToken, []⟩
        (exactValue (Name.text "255")) ↔
      exactValue (Name.text "255") ≤ 9223372036854775807 :=
  @integer_literal_exact_iff (fun _ => .matchFirst) (Name.text "255") 2
    ⟨[⟨0, 3, .token ⟨.intLiteral, 0, 1, 1, Name.text "255"⟩⟩], ⟨Name.text "255", 3, 1, 4⟩⟩
    (by decide +kernel) ⟨.intLiteral, 0, 1, 1, Name.text "255"⟩ (by decide) rfl
    (fun _ => .outOfFuel) ⟨mainProject [], 0⟩ [] [] eofToken []

/-- 2^64 + 1 is taken as the byte 1. -/
theorem literal_of_twenty_digits_wraps :
    Compiles (fun _ => .outOfFuel) ⟨mainProject [], 0⟩ [] (some .u8)
        ⟨[⟨.intLiteral, 0, 1, 1, Name.text "18446744073709551617"⟩], eofToken, []⟩ 1 ∧
      ¬ ExactOrRejected (fun _ => .outOfFuel) ⟨mainProject [], 0⟩ []
        ⟨[⟨.intLiteral, 0, 1, 1, Name.text "18446744073709551617"⟩], eofToken, []⟩
        (exactValue (Name.text "18446744073709551617")) := by
  have hcompiles : Compiles (fun _ => .outOfFuel) ⟨mainProject [], 0⟩ [] (some .u8)
      ⟨[⟨.intLiteral, 0, 1, 1, Name.text "18446744073709551617"⟩], eofToken, []⟩ 1 :=
    (compiles_iff _ _ _ _ rfl _ _ _ _).mpr ⟨by decide, fun _ => by decide⟩
  exact ⟨hcompiles, fun hexact => hexact.large (by decide) _ _ hcompiles⟩

end Parse

end Cnegative
