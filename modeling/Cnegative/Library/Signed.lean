import Mathlib.Tactic

namespace Library

namespace Signed

/-! Signed arithmetic: the exact result, when C defines it, and what the instruction gives. -/

inductive Operation where
  | add | sub | mul | div | mod
  deriving DecidableEq, Repr

/-- The result in unbounded integers; a division by zero has none. -/
def exact : Operation → Int → Int → Option Int
  | .add, left, right => some (left + right)
  | .sub, left, right => some (left - right)
  | .mul, left, right => some (left * right)
  | .div, left, right => if right = 0 then none else some (left.tdiv right)
  | .mod, left, right => if right = 0 then none else some (left.tmod right)

def InWord (value : Int) : Prop := -2 ^ 63 ≤ value ∧ value < 2 ^ 63

instance (value : Int) : Decidable (InWord value) := inferInstanceAs (Decidable (_ ∧ _))

/-- C defines the operation: the result fits, and for a remainder also the quotient. -/
def Defined : Operation → Int → Int → Prop
  | .add, left, right => InWord (left + right)
  | .sub, left, right => InWord (left - right)
  | .mul, left, right => InWord (left * right)
  | .div, left, right | .mod, left, right => right ≠ 0 ∧ InWord (left.tdiv right)

instance (operation : Operation) (left right : Int) :
    Decidable (Defined operation left right) := by
  cases operation <;> unfold Defined <;> infer_instance

def instruction : Operation → BitVec 64 → BitVec 64 → BitVec 64
  | .add, left, right => left + right
  | .sub, left, right => left - right
  | .mul, left, right => left * right
  | .div, left, right => left.sdiv right
  | .mod, left, right => left.srem right

/-- What C computes, where it defines the operation. -/
def evaluate (operation : Operation) (left right : BitVec 64) : Option (BitVec 64) :=
  if Defined operation left.toInt right.toInt then
    (exact operation left.toInt right.toInt).map (BitVec.ofInt 64)
  else none

theorem inWord_toInt (value : BitVec 64) : InWord value.toInt :=
  ⟨BitVec.le_toInt value, BitVec.toInt_lt⟩

theorem toInt_ofInt {value : Int} (hword : InWord value) : (BitVec.ofInt 64 value).toInt = value := by
  rw [BitVec.toInt_ofInt]
  exact Int.bmod_eq_of_le_mul_two (by have := hword.1; omega) (by have := hword.2; omega)

/-- The instruction agrees with C modulo 2^64 on every operation but a division by zero. -/
theorem ofInt_exact {operation : Operation} {left right : BitVec 64} {value : Int}
    (hexact : exact operation left.toInt right.toInt = some value) :
    BitVec.ofInt 64 value = instruction operation left right := by
  apply BitVec.eq_of_toInt_eq
  rw [BitVec.toInt_ofInt]
  cases operation with
  | add =>
      obtain rfl := Option.some.inj hexact
      rw [instruction, BitVec.toInt_add]
  | sub =>
      obtain rfl := Option.some.inj hexact
      rw [instruction, BitVec.toInt_sub]
  | mul =>
      obtain rfl := Option.some.inj hexact
      rw [instruction, BitVec.toInt_mul]
  | div =>
      rw [exact] at hexact
      split at hexact
      · cases hexact
      · obtain rfl := Option.some.inj hexact
        rw [instruction, BitVec.toInt_sdiv]
  | mod =>
      rw [exact] at hexact
      split at hexact
      · cases hexact
      · obtain rfl := Option.some.inj hexact
        rw [← BitVec.toInt_srem, instruction]
        exact Int.bmod_eq_of_le_mul_two
          (by have := (inWord_toInt (left.srem right)).1; omega)
          (by have := (inWord_toInt (left.srem right)).2; omega)

theorem exact_of_defined {operation : Operation} {left right : BitVec 64}
    (hdefined : Defined operation left.toInt right.toInt) :
    exact operation left.toInt right.toInt = some (instruction operation left right).toInt := by
  have hexists : ∃ value, exact operation left.toInt right.toInt = some value ∧ InWord value := by
    cases operation with
    | add | sub | mul => exact ⟨_, rfl, hdefined⟩
    | div => exact ⟨_, if_neg hdefined.1, hdefined.2⟩
    | mod =>
        refine ⟨_, if_neg hdefined.1, ?_⟩
        rw [← BitVec.toInt_srem]
        exact inWord_toInt _
  obtain ⟨value, hexact, hword⟩ := hexists
  rw [hexact, ← ofInt_exact hexact, toInt_ofInt hword]

theorem evaluate_eq {operation : Operation} {left right : BitVec 64} :
    evaluate operation left right =
      if Defined operation left.toInt right.toInt then some (instruction operation left right)
      else none := by
  unfold evaluate
  split
  · rename_i hdefined
    rw [exact_of_defined hdefined, Option.map_some, BitVec.ofInt_toInt]
  · rfl

end Signed

end Library
