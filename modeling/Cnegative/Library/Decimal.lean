import Mathlib.Data.Nat.Digits.Lemmas
import Mathlib.Tactic

namespace Library

namespace Decimal

/-! Numbers read from their decimal digits, the first digit first. -/

def value (digits : List Nat) : Nat := digits.foldl (fun acc digit => acc * 10 + digit) 0

@[simp] theorem value_nil : value [] = 0 := rfl

theorem value_append_singleton (digits : List Nat) (digit : Nat) :
    value (digits ++ [digit]) = value digits * 10 + digit := by
  rw [value, List.foldl_append]
  rfl

/-- The digits of a number, in reading order. -/
def digits (number : Nat) : List Nat := if number = 0 then [0] else (Nat.digits 10 number).reverse

theorem value_reverse (list : List Nat) : value list.reverse = Nat.ofDigits 10 list := by
  induction list with
  | nil => rfl
  | cons digit list ih =>
      rw [List.reverse_cons, value_append_singleton, ih, Nat.ofDigits_cons]
      ring

theorem value_digits (number : Nat) : value (digits number) = number := by
  unfold digits
  split
  · rename_i hzero
    rw [hzero]
    rfl
  · rw [value_reverse, Nat.ofDigits_digits]

theorem digits_ne_nil (number : Nat) : digits number ≠ [] := by
  unfold digits
  split
  · simp
  · rename_i hne
    rw [Ne, List.reverse_eq_nil_iff]
    exact Nat.digits_ne_nil_iff_ne_zero.mpr hne

theorem digit_lt {number digit : Nat} (hdigit : digit ∈ digits number) : digit < 10 := by
  unfold digits at hdigit
  split at hdigit
  · simp_all
  · exact Nat.digits_lt_base (by decide) (List.mem_reverse.mp hdigit)

theorem length_digits_le {number bound : Nat} (hpos : 0 < bound) (hlt : number < 10 ^ bound) :
    (digits number).length ≤ bound := by
  unfold digits
  split
  · exact hpos
  · rw [List.length_reverse]
    exact (Nat.digits_length_le_iff (by decide) number).mpr hlt

/-- Words that wrap hold the number modulo their size. -/
theorem foldl_ofNat (width : Nat) (list : List Nat) :
    list.foldl (fun acc digit => acc * 10 + BitVec.ofNat width digit) (0 : BitVec width) =
      BitVec.ofNat width (value list) := by
  induction list using List.reverseRecOn with
  | nil => rfl
  | append_singleton list digit ih =>
      rw [List.foldl_append, ih, value_append_singleton, BitVec.ofNat_add, BitVec.ofNat_mul]
      rfl

end Decimal

end Library
