import Mathlib.Tactic

namespace Library

namespace Utf8

/-! Unicode scalar values and the byte sequences that stand for them. -/

structure Scalar (code : Nat) : Prop where
  le : code ≤ 0x10FFFF
  notSurrogate : ¬ (0xD800 ≤ code ∧ code ≤ 0xDFFF)

def Tail (byte : Nat) : Prop := 0x80 ≤ byte ∧ byte ≤ 0xBF

inductive WellFormed : List Nat → Prop
  | one {first : Nat} (hfirst : first < 0x80) : WellFormed [first]
  | two {first second : Nat} (hfirst : 0xC2 ≤ first ∧ first ≤ 0xDF) (hsecond : Tail second) :
      WellFormed [first, second]
  | three {first second third : Nat} (hfirst : 0xE0 ≤ first ∧ first ≤ 0xEF)
      (hsecond : Tail second) (hthird : Tail third) (hshort : first = 0xE0 → 0xA0 ≤ second)
      (hsurrogate : first = 0xED → second ≤ 0x9F) : WellFormed [first, second, third]
  | four {first second third fourth : Nat} (hfirst : 0xF0 ≤ first ∧ first ≤ 0xF4)
      (hsecond : Tail second) (hthird : Tail third) (hfourth : Tail fourth)
      (hshort : first = 0xF0 → 0x90 ≤ second) (hlarge : first = 0xF4 → second ≤ 0x8F) :
      WellFormed [first, second, third, fourth]

/-- The sequence of a code up to 0x10FFFF. -/
def encode (code : Nat) : List Nat :=
  if code < 0x80 then [code]
  else if code < 0x800 then [0xC0 + code / 64, 0x80 + code % 64]
  else if code < 0x10000 then [0xE0 + code / 4096, 0x80 + code / 64 % 64, 0x80 + code % 64]
  else [0xF0 + code / 262144, 0x80 + code / 4096 % 64, 0x80 + code / 64 % 64, 0x80 + code % 64]

theorem wellFormed_encode {code : Nat} (hscalar : Scalar code) : WellFormed (encode code) := by
  obtain ⟨hhigh, hsurrogate⟩ := hscalar
  have htail : ∀ bits, Tail (0x80 + bits % 64) := by
    intro bits
    unfold Tail
    omega
  unfold encode
  split
  · exact .one (by assumption)
  · split
    · exact .two (by omega) (htail _)
    · split
      · exact .three (by omega) (htail _) (htail _) (by omega) (by omega)
      · exact .four (by omega) (htail _) (htail _) (htail _) (by omega) (by omega)

/-! The code of two, three or four bytes, without a look at what they may be. -/

def two (first second : Nat) : Nat := (first - 0xC0) * 64 + (second - 0x80)

def three (first second third : Nat) : Nat :=
  (first - 0xE0) * 4096 + (second - 0x80) * 64 + (third - 0x80)

def four (first second third fourth : Nat) : Nat :=
  (first - 0xF0) * 262144 + (second - 0x80) * 4096 + (third - 0x80) * 64 + (fourth - 0x80)

def codeOf : List Nat → Nat
  | [first] => first
  | [first, second] => two first second
  | [first, second, third] => three first second third
  | [first, second, third, fourth] => four first second third fourth
  | _ => 0

theorem codeOf_two (first second : Nat) : codeOf [first, second] = two first second := rfl

theorem codeOf_three (first second third : Nat) :
    codeOf [first, second, third] = three first second third := rfl

theorem codeOf_four (first second third fourth : Nat) :
    codeOf [first, second, third, fourth] = four first second third fourth := rfl

theorem codeOf_encode (code : Nat) : codeOf (encode code) = code := by
  have htwo : two (0xC0 + code / 64) (0x80 + code % 64) = code := by
    unfold two
    omega
  have hthree : three (0xE0 + code / 4096) (0x80 + code / 64 % 64) (0x80 + code % 64) = code := by
    unfold three
    omega
  have hfour : four (0xF0 + code / 262144) (0x80 + code / 4096 % 64) (0x80 + code / 64 % 64)
      (0x80 + code % 64) = code := by
    unfold four
    omega
  rw [encode]
  split_ifs
  · rfl
  · exact htwo
  · exact hthree
  · exact hfour

section Codes

variable {first second third fourth : Nat}

theorem encode_two (hfirst : 0xC2 ≤ first ∧ first ≤ 0xDF) (hsecond : Tail second) :
    Scalar (two first second) ∧ encode (two first second) = [first, second] := by
  unfold Tail at hsecond
  have hcode : 0x80 ≤ two first second ∧ two first second < 0x800 := by
    unfold two
    omega
  constructor
  · exact ⟨by omega, by omega⟩
  · rw [encode, if_neg (by omega), if_pos hcode.2]
    unfold two
    simp only [List.cons.injEq, and_true]
    omega

/-- Three bytes with tails are the sequence of their code just when it is well formed. -/
theorem encode_three_iff (hfirst : 0xE0 ≤ first ∧ first ≤ 0xEF) (hsecond : Tail second)
    (hthird : Tail third) :
    (Scalar (three first second third) ∧
      encode (three first second third) = [first, second, third]) ↔
      WellFormed [first, second, third] := by
  constructor
  · rintro ⟨hscalar, hencode⟩
    rw [← hencode]
    exact wellFormed_encode hscalar
  · rintro ⟨-, hsecond, hthird, hshort, hsurrogate⟩
    unfold Tail at hsecond hthird
    have hcode : 0x800 ≤ three first second third ∧ three first second third < 0x10000 := by
      unfold three
      omega
    constructor
    · refine ⟨by omega, ?_⟩
      unfold three
      omega
    · rw [encode, if_neg (by omega), if_neg (by omega), if_pos hcode.2]
      unfold three
      simp only [List.cons.injEq, and_true]
      omega

theorem encode_four_iff (hfirst : 0xF0 ≤ first ∧ first ≤ 0xF4) (hsecond : Tail second)
    (hthird : Tail third) (hfourth : Tail fourth) :
    (Scalar (four first second third fourth) ∧
      encode (four first second third fourth) = [first, second, third, fourth]) ↔
      WellFormed [first, second, third, fourth] := by
  constructor
  · rintro ⟨hscalar, hencode⟩
    rw [← hencode]
    exact wellFormed_encode hscalar
  · rintro ⟨-, hsecond, hthird, hfourth, hshort, hlarge⟩
    unfold Tail at hsecond hthird hfourth
    have hcode : 0x10000 ≤ four first second third fourth ∧
        four first second third fourth ≤ 0x10FFFF := by
      unfold four
      omega
    constructor
    · exact ⟨hcode.2, by omega⟩
    · rw [encode, if_neg (by omega), if_neg (by omega), if_neg (by omega)]
      unfold four
      simp only [List.cons.injEq, and_true]
      omega

end Codes

end Utf8

end Library
