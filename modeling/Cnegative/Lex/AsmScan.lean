import Cnegative.Library.X86
import Cnegative.Lex.Tiling

namespace Cnegative

namespace AsmScan

open Library.X86 Cnegative.Lex

/-! The two scanners of token tails, once in `x86_64_scan.S` and once in `scan_fallback.c`. -/

inductive Label where
  | scanNumberLoop | scanNumberDone
  | scanIdentLoop | scanIdentUpper | scanIdentLower | scanIdentAdvance | scanIdentDone
  deriving DecidableEq, Repr

open Label in
def scanNumberTail : List (Line Label) := [
  .movq .rdx .rax,
  .label scanNumberLoop,
  .cmpq .rsi .rax,
  .jcc .aboveEqual scanNumberDone,
  .movzbq .rdi .rax .rcx,
  .cmpb '0'.toUInt8 .rcx,
  .jcc .below scanNumberDone,
  .cmpb '9'.toUInt8 .rcx,
  .jcc .above scanNumberDone,
  .incq .rax,
  .jmp scanNumberLoop,
  .label scanNumberDone,
  .ret]

open Label in
def scanIdentifierTail : List (Line Label) := [
  .movq .rdx .rax,
  .label scanIdentLoop,
  .cmpq .rsi .rax,
  .jcc .aboveEqual scanIdentDone,
  .movzbq .rdi .rax .rcx,
  .cmpb '_'.toUInt8 .rcx,
  .jcc .equal scanIdentAdvance,
  .cmpb '0'.toUInt8 .rcx,
  .jcc .below scanIdentUpper,
  .cmpb '9'.toUInt8 .rcx,
  .jcc .belowEqual scanIdentAdvance,
  .label scanIdentUpper,
  .cmpb 'A'.toUInt8 .rcx,
  .jcc .below scanIdentLower,
  .cmpb 'Z'.toUInt8 .rcx,
  .jcc .belowEqual scanIdentAdvance,
  .label scanIdentLower,
  .cmpb 'a'.toUInt8 .rcx,
  .jcc .below scanIdentDone,
  .cmpb 'z'.toUInt8 .rcx,
  .jcc .above scanIdentDone,
  .label scanIdentAdvance,
  .incq .rax,
  .jmp scanIdentLoop,
  .label scanIdentDone,
  .ret]

/-! The C functions.  A `char` is signed or unsigned, and is compared as an `int`. -/

inductive CharSign where
  | signed | unsigned
  deriving DecidableEq, Repr

def CharSign.value : CharSign → UInt8 → Int
  | .signed, ch => ch.toBitVec.toInt
  | .unsigned, ch => ch.toNat

def isDigitChar (value : Int) : Bool := decide (48 ≤ value) && decide (value ≤ 57)

def isIdentContinueChar (value : Int) : Bool :=
  decide (value = 95) || (decide (48 ≤ value) && decide (value ≤ 57)) ||
    (decide (65 ≤ value) && decide (value ≤ 90)) || (decide (97 ≤ value) && decide (value ≤ 122))

/-- The loop of both functions; `none` is a read outside of the text. -/
def fallback (isTail : Int → Bool) (sign : CharSign) (text : Nat → Option UInt8)
    (length index : Nat) : Option Nat :=
  if _hmore : index < length then
    match text index with
    | none => none
    | some ch =>
        if isTail (sign.value ch) then fallback isTail sign text length (index + 1)
        else some index
  else some index
termination_by length - index

/-- The two functions, by name. -/
inductive Scanner where
  | number | identifier
  deriving DecidableEq, Repr

namespace Scanner

def listing : Scanner → List (Line Label)
  | .number => scanNumberTail
  | .identifier => scanIdentifierTail

def isTail : Scanner → Int → Bool
  | .number => isDigitChar
  | .identifier => isIdentContinueChar

def inClass : Scanner → UInt8 → Bool
  | .number => isAsciiDigit
  | .identifier => isIdentifierContinue

end Scanner

/-! The classes as bounds. -/

theorem isAsciiDigit_iff (ch : UInt8) :
    isAsciiDigit ch = true ↔ 48 ≤ ch.toNat ∧ ch.toNat ≤ 57 := by
  simp only [isAsciiDigit, Bool.and_eq_true, decide_eq_true_eq, UInt8.le_iff_toNat_le]
  rfl

theorem isIdentifierContinue_iff (ch : UInt8) :
    isIdentifierContinue ch = true ↔ ch.toNat = 95 ∨ 48 ≤ ch.toNat ∧ ch.toNat ≤ 57 ∨
      65 ≤ ch.toNat ∧ ch.toNat ≤ 90 ∨ 97 ≤ ch.toNat ∧ ch.toNat ≤ 122 := by
  have hunderscore : ch = underscore ↔ ch.toNat = 95 := by
    rw [← UInt8.toNat_inj]
    rfl
  simp only [isIdentifierContinue, isAsciiAlpha, Bool.or_eq_true, Bool.and_eq_true,
    decide_eq_true_eq, beq_iff_eq, isAsciiDigit_iff, UInt8.le_iff_toNat_le, hunderscore, or_assoc]
  rfl

namespace Scanner

theorem inClass_ascii (scanner : Scanner) {ch : UInt8} (hch : scanner.inClass ch = true) :
    ch.toNat < 0x80 := by
  cases scanner with
  | number =>
      have hbounds := (isAsciiDigit_iff ch).mp hch
      omega
  | identifier =>
      have hbounds := (isIdentifierContinue_iff ch).mp hch
      omega

/-- The comparisons of `int` values decide the class, whichever way a `char` is signed. -/
theorem isTail_value (scanner : Scanner) (sign : CharSign) (ch : UInt8) :
    scanner.isTail (sign.value ch) = scanner.inClass ch := by
  have hvalue : sign.value ch = ch.toNat ∨
      0x80 ≤ ch.toNat ∧ sign.value ch = (ch.toNat : Int) - 256 := by
    cases sign with
    | unsigned => exact Or.inl rfl
    | signed =>
        have hint : ch.toBitVec.toInt = if 2 * ch.toNat < 2 ^ 8 then (ch.toNat : Int)
            else (ch.toNat : Int) - 2 ^ 8 := BitVec.toInt_eq_toNat_cond _
        rw [CharSign.value, hint]
        have hlt := ch.toNat_lt
        split <;> omega
  rw [Bool.eq_iff_iff]
  cases scanner with
  | number =>
      rw [isTail, inClass, isAsciiDigit_iff]
      simp only [isDigitChar, Bool.and_eq_true, decide_eq_true_eq]
      have hlt := ch.toNat_lt
      omega
  | identifier =>
      rw [isTail, inClass, isIdentifierContinue_iff]
      simp only [isIdentContinueChar, Bool.or_eq_true, Bool.and_eq_true, decide_eq_true_eq]
      have hlt := ch.toNat_lt
      omega

end Scanner

/-! What one turn of each loop does. -/

structure Looks (base : BitVec 64) (length index : Nat) (register : Register → BitVec 64) :
    Prop where
  rdi : register .rdi = base
  rsi : register .rsi = BitVec.ofNat 64 length
  rax : register .rax = BitVec.ofNat 64 index

/-- The registers with a byte of the text in `%cl`. -/
structure Holds (base : BitVec 64) (length index : Nat) (byte : UInt8)
    (register : Register → BitVec 64) : Prop extends Looks base length index register where
  rcx : (register .rcx).toNat % 2 ^ 8 = byte.toNat

section Turn

variable {program : List (Line Label)} {base : BitVec 64} {text : Text} {index : Nat} {byte : UInt8}
  {state : Library.X86.State} {post : Library.X86.State → Prop}

/-- The head of both loops: the label, the test against the length and the load. -/
theorem turn_head {done : Label} (hword : text.length < 2 ^ 64) (hle : index ≤ text.length)
    {name : Label} (hlabel : program[1]? = some (.label name))
    (hcmpq : program[2]? = some (.cmpq .rsi .rax))
    (hjae : program[3]? = some (.jcc .aboveEqual done))
    (hload : program[4]? = some (.movzbq .rdi .rax .rcx)) (hline : state.line = 1)
    (hlooks : Looks base text.length index state.register)
    (hend : index = text.length → ∀ after, Looks base text.length index after.register →
      after.line = program.idxOf (.label done) →
        Returns program (mapped base text) after post)
    (hbyte : index < text.length → ∀ after,
      Holds base text.length index (byteAt text index) after.register → after.line = 5 →
        Returns program (mapped base text) after post) :
    Returns program (mapped base text) state post := by
  refine .label (by rw [hline]; exact hlabel) ?_
  have hindex : (state.register .rax).toNat = index := by
    rw [hlooks.rax, BitVec.toNat_ofNat, Nat.mod_eq_of_lt (by omega)]
  have hlength : (state.register .rsi).toNat = text.length := by
    rw [hlooks.rsi, BitVec.toNat_ofNat, Nat.mod_eq_of_lt hword]
  refine .cmpq (by rw [State.advance_line, hline]; exact hcmpq)
    (by rw [State.advance_line, hline]; exact hjae)
    (fun htaken after hsame hafter => ?_) (fun hpassed after hsame hafter => ?_)
  · rw [State.advance_register, hindex, hlength] at htaken
    simp only [Condition.test, decide_eq_true_eq] at htaken
    refine hend (by omega) after ?_ hafter
    rw [hsame]
    exact hlooks
  · rw [State.advance_register, hindex, hlength] at hpassed
    simp only [Condition.test, decide_eq_false_iff_not, not_le] at hpassed
    rw [State.advance_register] at hsame
    rw [State.advance_line, hline] at hafter
    have hloaded : mapped base text (after.register .rdi + after.register .rax) =
        some (byteAt text index) := by
      rw [hsame, hlooks.rdi, hlooks.rax, mapped_add (by omega), byteAt,
        List.getElem?_eq_getElem hpassed, Option.getD_some]
    refine .movzbq (by rw [hafter]; exact hload) hloaded ?_
    refine hbyte hpassed _ ⟨⟨?_, ?_, ?_⟩, ?_⟩ (by simp [hafter])
    · simp [hsame, hlooks.rdi]
    · simp [hsame, hlooks.rsi]
    · simp [hsame, hlooks.rax]
    · have hsmall := (byteAt text index).toNat_lt
      simp only [State.advance_register, State.set_register, Function.update_self,
        BitVec.toNat_ofNat]
      omega

/-- A comparison of the byte, and the jump behind it. -/
theorem Holds.branch {line : Nat} {right : UInt8} {condition : Condition} {target : Label}
    (hholds : Holds base text.length index byte state.register) (hline : state.line = line)
    (hcmpb : program[line]? = some (.cmpb right .rcx))
    (hjump : program[line + 1]? = some (.jcc condition target))
    (htaken : condition.test byte.toNat right.toNat = true → ∀ after,
      Holds base text.length index byte after.register →
        after.line = program.idxOf (.label target) →
          Returns program (mapped base text) after post)
    (hpassed : condition.test byte.toNat right.toNat = false → ∀ after,
      Holds base text.length index byte after.register → after.line = line + 2 →
        Returns program (mapped base text) after post) :
    Returns program (mapped base text) state post := by
  subst hline
  refine .cmpb hcmpb hjump (fun htest after hsame hafter => ?_)
    (fun htest after hsame hafter => ?_)
  · rw [hholds.rcx] at htest
    exact htaken htest after (hsame ▸ hholds) hafter
  · rw [hholds.rcx] at htest
    exact hpassed htest after (hsame ▸ hholds) hafter

theorem Holds.label {line : Nat} {name : Label}
    (hholds : Holds base text.length index byte state.register) (hline : state.line = line)
    (hlabel : program[line]? = some (.label name))
    (hafter : ∀ after, Holds base text.length index byte after.register → after.line = line + 1 →
      Returns program (mapped base text) after post) :
    Returns program (mapped base text) state post := by
  subst hline
  exact Returns.label hlabel (hafter _ hholds rfl)

/-- The step to the next index, and the jump back. -/
theorem Holds.again {line : Nat} {name : Label}
    (hholds : Holds base text.length index byte state.register) (hline : state.line = line)
    (hincq : program[line]? = some (.incq .rax))
    (hjmp : program[line + 1]? = some (.jmp name)) (hloop : program.idxOf (.label name) = 1)
    (hnext : ∀ after, Looks base text.length (index + 1) after.register → after.line = 1 →
      Returns program (mapped base text) after post) :
    Returns program (mapped base text) state post := by
  subst hline
  refine .incq hincq (.jmp hjmp (hnext _ ⟨?_, ?_, ?_⟩ hloop))
  · simp [hholds.rdi]
  · simp [hholds.rsi]
  · simp [hholds.rax, BitVec.ofNat_add]

/-- The end of both functions. -/
theorem Looks.finish {line : Nat} {done : Label}
    (hlooks : Looks base text.length index state.register) (hline : state.line = line)
    (hlabel : program[line]? = some (.label done)) (hret : program[line + 1]? = some .ret)
    (hpost : ∀ final, final.register .rax = BitVec.ofNat 64 index → post final) :
    Returns program (mapped base text) state post := by
  subst hline
  exact .label hlabel (.ret hret (hpost _ hlooks.rax))

/-- One turn of a loop: it stops at the index, or goes on behind a byte of the class. -/
theorem number_turn (hword : text.length < 2 ^ 64) (hle : index ≤ text.length)
    (hline : state.line = 1) (hlooks : Looks base text.length index state.register)
    (hstop : ¬ (index < text.length ∧ isAsciiDigit (byteAt text index) = true) →
      ∀ final, final.register .rax = BitVec.ofNat 64 index → post final)
    (hnext : index < text.length ∧ isAsciiDigit (byteAt text index) = true → ∀ after,
      Looks base text.length (index + 1) after.register → after.line = 1 →
        Returns scanNumberTail (mapped base text) after post) :
    Returns scanNumberTail (mapped base text) state post := by
  refine turn_head hword hle rfl rfl rfl rfl hline hlooks (fun hend after hlooks hafter => ?_)
    (fun hlt after hholds hafter => ?_)
  · exact hlooks.finish hafter rfl rfl (hstop (by omega))
  rw [isAsciiDigit_iff] at hstop hnext
  refine hholds.branch hafter rfl rfl (fun hlow after hholds hafter => ?_)
    (fun hlow after hholds hafter => ?_)
  · have hlow : (byteAt text index).toNat < 48 := of_decide_eq_true hlow
    exact hholds.finish hafter rfl rfl (hstop (by omega))
  have hlow : ¬ (byteAt text index).toNat < 48 := of_decide_eq_false hlow
  refine hholds.branch hafter rfl rfl (fun hhigh after hholds hafter => ?_)
    (fun hhigh after hholds hafter => ?_)
  · have hhigh : 57 < (byteAt text index).toNat := of_decide_eq_true hhigh
    exact hholds.finish hafter rfl rfl (hstop (by omega))
  · have hhigh : ¬ 57 < (byteAt text index).toNat := of_decide_eq_false hhigh
    exact hholds.again hafter rfl rfl rfl (hnext (by omega))

theorem identifier_turn (hword : text.length < 2 ^ 64) (hle : index ≤ text.length)
    (hline : state.line = 1) (hlooks : Looks base text.length index state.register)
    (hstop : ¬ (index < text.length ∧ isIdentifierContinue (byteAt text index) = true) →
      ∀ final, final.register .rax = BitVec.ofNat 64 index → post final)
    (hnext : index < text.length ∧ isIdentifierContinue (byteAt text index) = true → ∀ after,
      Looks base text.length (index + 1) after.register → after.line = 1 →
        Returns scanIdentifierTail (mapped base text) after post) :
    Returns scanIdentifierTail (mapped base text) state post := by
  refine turn_head hword hle rfl rfl rfl rfl hline hlooks (fun hend after hlooks hafter => ?_)
    (fun hlt after hholds hafter => ?_)
  · exact hlooks.finish hafter rfl rfl (hstop (by omega))
  rw [isIdentifierContinue_iff] at hstop hnext
  -- The four labels of the turn, from the last one back.
  have advance : ∀ state : Library.X86.State,
      Holds base text.length index (byteAt text index) state.register →
      state.line = 21 → (byteAt text index).toNat = 95 ∨
        48 ≤ (byteAt text index).toNat ∧ (byteAt text index).toNat ≤ 57 ∨
        65 ≤ (byteAt text index).toNat ∧ (byteAt text index).toNat ≤ 90 ∨
        97 ≤ (byteAt text index).toNat ∧ (byteAt text index).toNat ≤ 122 →
      Returns scanIdentifierTail (mapped base text) state post := by
    intro state hholds hline hclass
    refine hholds.label hline rfl fun after hholds hafter => ?_
    exact hholds.again hafter rfl rfl rfl (hnext ⟨hlt, hclass⟩)
  have lower : ∀ state : Library.X86.State,
      Holds base text.length index (byteAt text index) state.register →
      state.line = 16 → ((byteAt text index).toNat ≠ 95 ∧ ¬ (48 ≤ (byteAt text index).toNat ∧
        (byteAt text index).toNat ≤ 57) ∧ ¬ (65 ≤ (byteAt text index).toNat ∧
        (byteAt text index).toNat ≤ 90)) →
      Returns scanIdentifierTail (mapped base text) state post := by
    intro state hholds hline hclass
    refine hholds.label hline rfl fun after hholds hafter => ?_
    refine hholds.branch hafter rfl rfl (fun hlow after hholds hafter => ?_)
      (fun hlow after hholds hafter => ?_)
    · have hlow : (byteAt text index).toNat < 97 := of_decide_eq_true hlow
      exact hholds.finish hafter rfl rfl (hstop (by omega))
    have hlow : ¬ (byteAt text index).toNat < 97 := of_decide_eq_false hlow
    refine hholds.branch hafter rfl rfl (fun hhigh after hholds hafter => ?_)
      (fun hhigh after hholds hafter => ?_)
    · have hhigh : 122 < (byteAt text index).toNat := of_decide_eq_true hhigh
      exact hholds.finish hafter rfl rfl (hstop (by omega))
    · have hhigh : ¬ 122 < (byteAt text index).toNat := of_decide_eq_false hhigh
      exact advance after hholds hafter (by omega)
  have upper : ∀ state : Library.X86.State,
      Holds base text.length index (byteAt text index) state.register →
      state.line = 11 → ((byteAt text index).toNat ≠ 95 ∧ ¬ (48 ≤ (byteAt text index).toNat ∧
        (byteAt text index).toNat ≤ 57)) →
      Returns scanIdentifierTail (mapped base text) state post := by
    intro state hholds hline hclass
    refine hholds.label hline rfl fun after hholds hafter => ?_
    refine hholds.branch hafter rfl rfl (fun hlow after hholds hafter => ?_)
      (fun hlow after hholds hafter => ?_)
    · have hlow : (byteAt text index).toNat < 65 := of_decide_eq_true hlow
      exact lower after hholds hafter (by omega)
    have hlow : ¬ (byteAt text index).toNat < 65 := of_decide_eq_false hlow
    refine hholds.branch hafter rfl rfl (fun hhigh after hholds hafter => ?_)
      (fun hhigh after hholds hafter => ?_)
    · have hhigh : (byteAt text index).toNat ≤ 90 := of_decide_eq_true hhigh
      exact advance after hholds hafter (by omega)
    · have hhigh : ¬ (byteAt text index).toNat ≤ 90 := of_decide_eq_false hhigh
      exact lower after hholds hafter (by omega)
  refine hholds.branch hafter rfl rfl (fun hsame after hholds hafter => ?_)
    (fun hother after hholds hafter => ?_)
  · have hsame : (byteAt text index).toNat = 95 := of_decide_eq_true hsame
    exact advance after hholds hafter (by omega)
  have hother : ¬ (byteAt text index).toNat = 95 := of_decide_eq_false hother
  refine hholds.branch hafter rfl rfl (fun hlow after hholds hafter => ?_)
    (fun hlow after hholds hafter => ?_)
  · have hlow : (byteAt text index).toNat < 48 := of_decide_eq_true hlow
    exact upper after hholds hafter (by omega)
  have hlow : ¬ (byteAt text index).toNat < 48 := of_decide_eq_false hlow
  refine hholds.branch hafter rfl rfl (fun hhigh after hholds hafter => ?_)
    (fun hhigh after hholds hafter => ?_)
  · have hhigh : (byteAt text index).toNat ≤ 57 := of_decide_eq_true hhigh
    exact advance after hholds hafter (by omega)
  · have hhigh : ¬ (byteAt text index).toNat ≤ 57 := of_decide_eq_false hhigh
    exact upper after hholds hafter (by omega)

end Turn

/-! Both versions find the end of the tail. -/

namespace Scanner

variable {scanner : Scanner} {text : Text}

theorem turn {base : BitVec 64} {index : Nat} {state : Library.X86.State}
    {post : Library.X86.State → Prop}
    (hword : text.length < 2 ^ 64) (hle : index ≤ text.length) (hline : state.line = 1)
    (hlooks : Looks base text.length index state.register)
    (hstop : ¬ (index < text.length ∧ scanner.inClass (byteAt text index) = true) →
      ∀ final, final.register .rax = BitVec.ofNat 64 index → post final)
    (hnext : index < text.length ∧ scanner.inClass (byteAt text index) = true → ∀ after,
      Looks base text.length (index + 1) after.register → after.line = 1 →
        Returns scanner.listing (mapped base text) after post) :
    Returns scanner.listing (mapped base text) state post := by
  cases scanner with
  | number => exact number_turn hword hle hline hlooks hstop hnext
  | identifier => exact identifier_turn hword hle hline hlooks hstop hnext

theorem listing_loop {base : BitVec 64} {index : Nat} (hword : text.length < 2 ^ 64)
    (hle : index ≤ text.length) {state : Library.X86.State} (hline : state.line = 1)
    (hlooks : Looks base text.length index state.register) :
    Returns scanner.listing (mapped base text) state fun final =>
      final.register .rax = BitVec.ofNat 64 (scanTail scanner.inClass text index) := by
  induction index using scanTail.induct scanner.inClass text generalizing state with
  | case1 index hmore ih =>
      rw [scanTail, dif_pos hmore]
      exact turn hword hle hline hlooks (fun hstop => absurd hmore hstop)
        fun _ after hlooks hafter => ih (by omega) hafter hlooks
  | case2 index hmore =>
      rw [scanTail, dif_neg hmore]
      exact turn hword hle hline hlooks (fun _ final hrax => hrax)
        fun hnext => absurd hnext hmore

/-- The call by the System V convention: the text, its length and the index. -/
structure Called (base : BitVec 64) (length index : Nat) (state : Library.X86.State) : Prop where
  line : state.line = 0
  rdi : state.register .rdi = base
  rsi : state.register .rsi = BitVec.ofNat 64 length
  rdx : state.register .rdx = BitVec.ofNat 64 index

theorem listing_returns {base : BitVec 64} {index : Nat} (hword : text.length < 2 ^ 64)
    (hle : index ≤ text.length) {state : Library.X86.State}
    (hcalled : Called base text.length index state) :
    Returns scanner.listing (mapped base text) state fun final =>
      final.register .rax = BitVec.ofNat 64 (scanTail scanner.inClass text index) := by
  have hfirst : scanner.listing[state.line]? = some (.movq .rdx .rax) := by
    rw [hcalled.line]
    cases scanner <;> rfl
  refine .movq hfirst (listing_loop hword hle (by simp [hcalled.line]) ⟨?_, ?_, ?_⟩)
  · simp [hcalled.rdi]
  · simp [hcalled.rsi]
  · simp [hcalled.rdx]

theorem fallback_eq (sign : CharSign) (index : Nat) :
    fallback scanner.isTail sign (text[·]?) text.length index =
      some (scanTail scanner.inClass text index) := by
  induction index using scanTail.induct scanner.inClass text with
  | case1 index hmore ih =>
      have hbyte : text[index]? = some (byteAt text index) := by
        rw [byteAt, List.getElem?_eq_getElem hmore.1, Option.getD_some]
      rw [fallback, dif_pos hmore.1, scanTail, dif_pos hmore]
      simp only [hbyte, isTail_value, hmore.2, if_true]
      exact ih
  | case2 index hmore =>
      rw [fallback, scanTail, dif_neg hmore]
      split
      · rename_i hlt
        have hbyte : text[index]? = some (byteAt text index) := by
          rw [byteAt, List.getElem?_eq_getElem hlt, Option.getD_some]
        have hout : scanner.inClass (byteAt text index) = false := by
          simpa [hlt] using hmore
        simp only [hbyte, isTail_value, hout, Bool.false_eq_true, if_false]
      · rfl

end Scanner

/-- `stop` is the first index from `start` on whose byte is not in the class, or the length. -/
structure FirstOutside (inClass : UInt8 → Bool) (text : Text) (start stop : Nat) : Prop where
  le : start ≤ stop
  le_length : stop ≤ text.length
  inside : ∀ index, start ≤ index → index < stop → inClass (byteAt text index) = true
  outside : stop < text.length → inClass (byteAt text stop) = false

theorem scanTail_firstOutside (scanner : Scanner) {text : Text} {start : Nat}
    (hle : start ≤ text.length) :
    FirstOutside scanner.inClass text start (scanTail scanner.inClass text start) := by
  have hzero : scanner.inClass 0 = false := by
    cases scanner <;> decide
  obtain ⟨hforward, hbarrier, hinside⟩ := scanTail_spec hzero start
  refine ⟨hforward, hbarrier _ (byteAt_length (Nat.le_refl _)) hle, hinside, ?_⟩
  clear hforward hbarrier hinside hle
  induction start using scanTail.induct scanner.inClass text with
  | case1 start hmore ih =>
      rw [scanTail, dif_pos hmore]
      exact ih
  | case2 start hmore =>
      rw [scanTail, dif_neg hmore]
      intro hlt
      simpa [hlt] using hmore

/-- Of a buffer, only the bytes below the length are readable here, so a run that returns
reads none behind them. -/
theorem asm_eq_fallback (scanner : Scanner) (sign : CharSign) (buffer : Text) (length start : Nat)
    (hlength : length ≤ buffer.length) (hstart : start ≤ length) (hword : length < 2 ^ 64)
    (base : BitVec 64) (state : Library.X86.State)
    (hcalled : Scanner.Called base length start state) :
    ∃ stop, FirstOutside scanner.inClass (buffer.take length) start stop ∧
      fallback scanner.isTail sign ((buffer.take length)[·]?) length start = some stop ∧
      (∃ fuel final, run scanner.listing (mapped base (buffer.take length)) fuel state =
        some final ∧ final.register .rax = BitVec.ofNat 64 stop) ∧
      ∀ ch : UInt8, 0x80 ≤ ch → scanner.inClass ch = false := by
  have htake : (buffer.take length).length = length := by
    rw [List.length_take, Nat.min_eq_left hlength]
  refine ⟨scanTail scanner.inClass (buffer.take length) start,
    scanTail_firstOutside scanner (htake.symm ▸ hstart), ?_, ?_, fun ch hch => ?_⟩
  · have hfallback := @Scanner.fallback_eq scanner (buffer.take length) sign start
    rwa [htake] at hfallback
  · exact Scanner.listing_returns (htake.symm ▸ hword) (htake.symm ▸ hstart)
      (htake.symm ▸ hcalled)
  · by_contra hclass
    have hascii := scanner.inClass_ascii (by simpa using hclass)
    have hch : 0x80 ≤ ch.toNat := UInt8.le_iff_toNat_le.mp hch
    omega

/-- The tail of `a1` in `a1 b`, for a text at address 4096. -/
theorem asm_eq_fallback_a1 :
    ∃ stop, FirstOutside Scanner.identifier.inClass [97, 49, 32, 98] 1 stop ∧
      fallback Scanner.identifier.isTail .signed (([97, 49, 32, 98] : Text)[·]?) 4 1 = some stop ∧
      (∃ fuel final, run Scanner.identifier.listing (mapped 4096 [97, 49, 32, 98]) fuel
        ⟨fun register => match register with | .rdi => 4096 | .rsi => 4 | .rdx => 1 | _ => 0,
          false, false, 0⟩ = some final ∧ final.register .rax = BitVec.ofNat 64 stop) ∧
      ∀ ch : UInt8, 0x80 ≤ ch → Scanner.identifier.inClass ch = false :=
  asm_eq_fallback .identifier .signed [97, 49, 32, 98] 4 1 (by decide) (by decide) (by decide) 4096
    _ ⟨rfl, rfl, rfl, rfl⟩

end AsmScan

end Cnegative
