import Mathlib.Tactic

namespace Library

namespace X86

/-! The part of x86-64 that byte scanners use, line by line of an assembly listing in
AT&T order: the source operand stands before the target. -/

inductive Register where
  | rax | rcx | rdx | rsi | rdi
  deriving DecidableEq, Repr

inductive Condition where
  | aboveEqual | below | above | belowEqual | equal
  deriving DecidableEq, Repr

inductive Line (Label : Type) where
  | label (name : Label)
  | movq (source target : Register)
  | movzbq (base index target : Register)
  | cmpq (right left : Register)
  | cmpb (right : UInt8) (left : Register)
  | incq (target : Register)
  | jcc (condition : Condition) (target : Label)
  | jmp (target : Label)
  | ret
  deriving DecidableEq, Repr

/-- An address that is not mapped has no byte. -/
abbrev Memory := BitVec 64 → Option UInt8

/-- The flags that the lines above read; `line` is the position in the listing. -/
structure State where
  register : Register → BitVec 64
  carry : Bool
  zero : Bool
  line : Nat

inductive Outcome where
  | next (state : State)
  | returned (state : State)
  | fault

namespace State

def set (state : State) (target : Register) (value : BitVec 64) : State :=
  { state with register := Function.update state.register target value }

def advance (state : State) : State := { state with line := state.line + 1 }

/-- The flags of an unsigned subtraction that keeps only them. -/
def compare (state : State) (left right : Nat) : State :=
  { state with carry := decide (left < right), zero := decide (left = right) }

section Fields

variable (state : State) (target : Register) (value : BitVec 64) (left right : Nat)

@[simp] theorem set_register :
    (state.set target value).register = Function.update state.register target value := rfl

@[simp] theorem set_line : (state.set target value).line = state.line := rfl

@[simp] theorem advance_register : state.advance.register = state.register := rfl

@[simp] theorem advance_carry : state.advance.carry = state.carry := rfl

@[simp] theorem advance_zero : state.advance.zero = state.zero := rfl

@[simp] theorem advance_line : state.advance.line = state.line + 1 := rfl

@[simp] theorem compare_register : (state.compare left right).register = state.register := rfl

@[simp] theorem compare_carry : (state.compare left right).carry = decide (left < right) := rfl

@[simp] theorem compare_zero : (state.compare left right).zero = decide (left = right) := rfl

@[simp] theorem compare_line : (state.compare left right).line = state.line := rfl

end Fields

end State

def Condition.holds : Condition → State → Bool
  | .aboveEqual, state => !state.carry
  | .below, state => state.carry
  | .above, state => !state.carry && !state.zero
  | .belowEqual, state => state.carry || state.zero
  | .equal, state => state.zero

/-- What the condition says about the two sides of a comparison. -/
def Condition.test : Condition → Nat → Nat → Bool
  | .aboveEqual, left, right => decide (right ≤ left)
  | .below, left, right => decide (left < right)
  | .above, left, right => decide (right < left)
  | .belowEqual, left, right => decide (left ≤ right)
  | .equal, left, right => decide (left = right)

theorem Condition.holds_compare (condition : Condition) (state : State) (left right : Nat) :
    condition.holds (state.compare left right).advance = condition.test left right := by
  have hcompare := lt_trichotomy left right
  cases condition <;>
    simp only [holds, test, State.advance_carry, State.advance_zero, State.compare_carry,
      State.compare_zero] <;>
    grind

variable {Label : Type} [DecidableEq Label]

def jump (program : List (Line Label)) (target : Label) (state : State) : State :=
  { state with line := program.idxOf (.label target) }

@[simp] theorem jump_register (program : List (Line Label)) (target : Label) (state : State) :
    (jump program target state).register = state.register := rfl

def execute (program : List (Line Label)) (memory : Memory) (state : State) :
    Line Label → Outcome
  | .label _ => .next state.advance
  | .movq source target => .next (state.set target (state.register source)).advance
  | .movzbq base index target =>
      match memory (state.register base + state.register index) with
      | none => .fault
      | some byte => .next (state.set target (BitVec.ofNat 64 byte.toNat)).advance
  | .cmpq right left =>
      .next (state.compare (state.register left).toNat (state.register right).toNat).advance
  | .cmpb right left =>
      .next (state.compare ((state.register left).toNat % 2 ^ 8) right.toNat).advance
  | .incq target =>
      let sum := state.register target + 1
      .next ({ state.set target sum with zero := decide (sum = 0) }).advance
  | .jcc condition target =>
      .next (if condition.holds state then jump program target state else state.advance)
  | .jmp target => .next (jump program target state)
  | .ret => .returned state

def step (program : List (Line Label)) (memory : Memory) (state : State) : Outcome :=
  match program[state.line]? with
  | none => .fault
  | some line => execute program memory state line

/-- `none` is a fault, or a run that needs more steps. -/
def run (program : List (Line Label)) (memory : Memory) : Nat → State → Option State
  | 0, _ => none
  | fuel + 1, state =>
      match step program memory state with
      | .next state => run program memory fuel state
      | .returned state => some state
      | .fault => none

def Returns (program : List (Line Label)) (memory : Memory) (state : State)
    (post : State → Prop) : Prop :=
  ∃ fuel final, run program memory fuel state = some final ∧ post final

/-! One rule for each kind of line. -/

namespace Returns

variable {program : List (Line Label)} {memory : Memory} {state : State} {post : State → Prop}

theorem of_next {after : State} (hstep : step program memory state = .next after)
    (hafter : Returns program memory after post) : Returns program memory state post := by
  obtain ⟨fuel, final, hrun, hpost⟩ := hafter
  exact ⟨fuel + 1, final, by rw [run, hstep, ← hrun], hpost⟩

theorem label {name : Label} (hline : program[state.line]? = some (.label name))
    (hafter : Returns program memory state.advance post) : Returns program memory state post :=
  of_next (by rw [step, hline]; rfl) hafter

theorem movq {source target : Register} (hline : program[state.line]? = some (.movq source target))
    (hafter : Returns program memory (state.set target (state.register source)).advance post) :
    Returns program memory state post :=
  of_next (by rw [step, hline]; rfl) hafter

theorem movzbq {base index target : Register} {byte : UInt8}
    (hline : program[state.line]? = some (.movzbq base index target))
    (hbyte : memory (state.register base + state.register index) = some byte)
    (hafter : Returns program memory
      (state.set target (BitVec.ofNat 64 byte.toNat)).advance post) :
    Returns program memory state post := by
  refine of_next ?_ hafter
  rw [step, hline]
  simp only [execute, hbyte]

/-- A comparison and the conditional jump behind it, with both ways out. -/
theorem compareJump {condition : Condition} {target : Label} {left right : Nat}
    (hcompare : step program memory state = .next (state.compare left right).advance)
    (hjump : program[state.line + 1]? = some (.jcc condition target))
    (htaken : condition.test left right = true → ∀ after, after.register = state.register →
      after.line = program.idxOf (.label target) → Returns program memory after post)
    (hpassed : condition.test left right = false → ∀ after, after.register = state.register →
      after.line = state.line + 2 → Returns program memory after post) :
    Returns program memory state post := by
  refine of_next hcompare ?_
  have hstep : step program memory (state.compare left right).advance =
      .next (if condition.test left right = true then
        jump program target (state.compare left right).advance
        else (state.compare left right).advance.advance) := by
    rw [step, State.advance_line, State.compare_line, hjump]
    simp only [execute, condition.holds_compare]
  refine of_next hstep ?_
  split
  · rename_i htest
    exact htaken htest _ rfl rfl
  · rename_i htest
    exact hpassed (by simpa using htest) _ rfl rfl

theorem cmpq {condition : Condition} {target : Label} {right left : Register}
    (hline : program[state.line]? = some (.cmpq right left))
    (hjump : program[state.line + 1]? = some (.jcc condition target))
    (htaken : condition.test (state.register left).toNat (state.register right).toNat = true →
      ∀ after, after.register = state.register →
        after.line = program.idxOf (.label target) → Returns program memory after post)
    (hpassed : condition.test (state.register left).toNat (state.register right).toNat = false →
      ∀ after, after.register = state.register →
        after.line = state.line + 2 → Returns program memory after post) :
    Returns program memory state post :=
  compareJump (by rw [step, hline]; rfl) hjump htaken hpassed

theorem cmpb {condition : Condition} {target : Label} {right : UInt8} {left : Register}
    (hline : program[state.line]? = some (.cmpb right left))
    (hjump : program[state.line + 1]? = some (.jcc condition target))
    (htaken : condition.test ((state.register left).toNat % 2 ^ 8) right.toNat = true →
      ∀ after, after.register = state.register →
        after.line = program.idxOf (.label target) → Returns program memory after post)
    (hpassed : condition.test ((state.register left).toNat % 2 ^ 8) right.toNat = false →
      ∀ after, after.register = state.register →
        after.line = state.line + 2 → Returns program memory after post) :
    Returns program memory state post :=
  compareJump (by rw [step, hline]; rfl) hjump htaken hpassed

theorem incq {target : Register} (hline : program[state.line]? = some (.incq target))
    (hafter : Returns program memory
      ({ state.set target (state.register target + 1) with
          zero := decide (state.register target + 1 = 0) }).advance post) :
    Returns program memory state post :=
  of_next (by rw [step, hline]; rfl) hafter

theorem jmp {target : Label} (hline : program[state.line]? = some (.jmp target))
    (hafter : Returns program memory (jump program target state) post) :
    Returns program memory state post :=
  of_next (by rw [step, hline]; rfl) hafter

theorem ret (hline : program[state.line]? = some .ret) (hpost : post state) :
    Returns program memory state post :=
  ⟨1, state, by rw [run, step, hline]; rfl, hpost⟩

end Returns

/-- The bytes of a buffer at an address, with nothing mapped around them. -/
def mapped (base : BitVec 64) (bytes : List UInt8) : Memory :=
  fun address => bytes[(address - base).toNat]?

theorem mapped_add {base : BitVec 64} {bytes : List UInt8} {index : Nat}
    (hindex : index < 2 ^ 64) : mapped base bytes (base + BitVec.ofNat 64 index) = bytes[index]? := by
  rw [mapped, BitVec.add_comm, BitVec.add_sub_cancel, BitVec.toNat_ofNat, Nat.mod_eq_of_lt hindex]

end X86

end Library
