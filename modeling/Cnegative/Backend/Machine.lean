import Mathlib.Logic.Relation
import Cnegative.Backend.Llvm
import Cnegative.Semantics.Scalar

namespace Cnegative

open Library (Line Code)

open Scalar (Oracle Outside)

namespace Llvm

/-! A machine for the emitted text, as far as it works on scalars: `i64`, `i8`, `i1` and the
stack slots that hold them. -/

/-- The result of an `alloca` points to a slot of the memory. -/
structure Machine (ω : Type) where
  registers : Nat → Option Value
  memory : List Value
  outside : Outside ω

variable {ω : Type}

namespace Machine

def operand (machine : Machine ω) (value : LlvmValue) : Option Value :=
  match value.data with
  | .int constant => some (Value.ofInt value.type constant)
  | .bool constant => some (.bool constant)
  | .reg id => machine.registers id
  | .void => some .void
  | .null | .stray => none

def slot (machine : Machine ω) : Pointer → Option Nat
  | .reg id =>
      match machine.registers id with
      | some (.ptr (some ⟨slot, []⟩)) => some slot
      | _ => none
  | .stray => none

def write (machine : Machine ω) (id : Nat) (value : Value) : Machine ω :=
  { machine with registers := fun other => if other = id then some value
      else machine.registers other }

def allocate (machine : Machine ω) : Machine ω :=
  { machine with memory := machine.memory ++ [.undef] }

def store (machine : Machine ω) (slot : Nat) (value : Value) : Machine ω :=
  { machine with memory := machine.memory.set slot value }

end Machine

/-- Division by zero and the quotient that does not fit have no result. -/
def ArithOp.apply (op : ArithOp) (left right : BitVec 64) : Option (BitVec 64) :=
  match op with
  | .add => some (left + right)
  | .sub => some (left - right)
  | .mul => some (left * right)
  | .sdiv => if right = 0 ∨ (left = BitVec.intMin 64 ∧ right = -1) then none
      else some (left.sdiv right)
  | .srem => if right = 0 ∨ (left = BitVec.intMin 64 ∧ right = -1) then none
      else some (left.srem right)

def Predicate.holds {width : Nat} (predicate : Predicate) (left right : BitVec width) : Bool :=
  match predicate with
  | .eq => left == right
  | .slt => left.slt right
  | .sle => left.sle right
  | .sgt => right.slt left
  | .sge => right.sle left
  | .ult => left.ult right
  | .ule => left.ule right
  | .ugt => right.ult left
  | .uge => right.ule left

def Predicate.compare (predicate : Predicate) : Value → Value → Option Bool
  | .int left, .int right => some (predicate.holds left right)
  | .u8 left, .u8 right => some (predicate.holds left right)
  | .bool left, .bool right =>
      some (predicate.holds (BitVec.ofBool left) (BitVec.ofBool right))
  | _, _ => none

section

variable (oracle : Oracle ω) (arguments : List Value)

/-- One instruction that is no terminator; `none` where it has no defined result or works on
other than scalars. -/
def execute (machine : Machine ω) : Inst → Option (Machine ω)
  | .alloca id _ =>
      some (machine.allocate.write id (.ptr (some ⟨machine.memory.length, []⟩)))
  | .storeArgument _ index pointer => do
      let value ← arguments[index]?
      let slot ← machine.slot pointer
      return machine.store slot value
  | .store value pointer => do
      let value ← machine.operand value
      let slot ← machine.slot pointer
      return machine.store slot value
  | .load id _ pointer => do
      let slot ← machine.slot pointer
      let value ← machine.memory[slot]?
      return machine.write id value
  | .arith id op left right =>
      match machine.operand left, machine.operand right with
      | some (.int first), some (.int second) => do
          return machine.write id (.int (← op.apply first second))
      | _, _ => none
  | .boolAnd id left right =>
      match machine.operand left, machine.operand right with
      | some (.bool first), some (.bool second) =>
          some (machine.write id (.bool (first && second)))
      | _, _ => none
  | .boolNot id value =>
      match machine.operand value with
      | some (.bool held) => some (machine.write id (.bool (!held)))
      | _ => none
  | .icmp id predicate left right => do
      let first ← machine.operand left
      let second ← machine.operand right
      return machine.write id (.bool (← predicate.compare first second))
  | .zext id value =>
      match machine.operand value with
      | some (.u8 byte) => some (machine.write id (.int (byte.setWidth 64)))
      | _ => none
  | .call result type symbol operands => do
      let values ← operands.mapM machine.operand
      let (value, outside) ← oracle.answer type symbol values machine.outside
      let called := { machine with outside := outside }
      return match result with
        | some id => called.write id value
        | none => called
  | _ => none

abbrev Config (ω : Type) := Code Inst × Machine ω

/-- The step from a position; control never falls into a label. -/
def step (code : Code Inst) (config : Config ω) : Option (Config ω) :=
  match config.1 with
  | [] | .label _ :: _ => none
  | .inst (.br target) :: _ => (code.findLabel target).map fun behind => (behind, config.2)
  | .inst (.condBr condition thenLabel elseLabel) :: _ =>
      match config.2.operand condition with
      | some (.bool test) =>
          (code.findLabel (if test then thenLabel else elseLabel)).map fun behind =>
            (behind, config.2)
      | _ => none
  | .inst inst :: rest => (execute oracle arguments config.2 inst).map fun after => (rest, after)

/-- The value that a `ret` returns. -/
def returned? (config : Config ω) : Option Value :=
  match config.1 with
  | .inst (.ret value) :: _ => config.2.operand value
  | .inst .retVoid :: _ => some .void
  | _ => none

/-- At most `fuel` steps. -/
def runCode (code : Code Inst) : Nat → Config ω → Option (Value × Machine ω)
  | 0, _ => none
  | fuel + 1, config =>
      match returned? config with
      | some value => some (value, config.2)
      | none => (step oracle arguments code config).bind (runCode code fuel)

def Reaches (code : Code Inst) : Config ω → Config ω → Prop :=
  Relation.ReflTransGen fun config after => step oracle arguments code config = some after

variable {oracle arguments} {code : Code Inst} {config after : Config ω}

theorem Reaches.single (hstep : step oracle arguments code config = some after) :
    Reaches oracle arguments code config after :=
  Relation.ReflTransGen.single hstep

theorem step_of_returned {value : Value} (hreturned : returned? config = some value) :
    step oracle arguments code config = none := by
  obtain ⟨position, machine⟩ := config
  unfold returned? at hreturned
  split at hreturned
  · next hposition =>
      simp only at hposition
      subst hposition
      rfl
  · next hposition =>
      simp only at hposition
      subst hposition
      rfl
  · cases hreturned

theorem runCode_of_reaches (hreaches : Reaches oracle arguments code config after) {value : Value}
    (hreturned : returned? after = some value) :
    ∃ fuel, runCode oracle arguments code fuel config = some (value, after.2) := by
  induction hreaches using Relation.ReflTransGen.head_induction_on with
  | refl => exact ⟨1, by rw [runCode, hreturned]⟩
  | @head config middle hstep _ ih =>
      obtain ⟨fuel, hrun⟩ := ih
      refine ⟨fuel + 1, ?_⟩
      have hnone : returned? config = none := by
        cases hat : returned? config with
        | none => rfl
        | some other =>
            rw [step_of_returned hat] at hstep
            cases hstep
      rw [runCode, hnone]
      simp only [hstep, Option.bind_some, hrun]

theorem runCode_succ {fuel : Nat} {result : Value × Machine ω}
    (hrun : runCode oracle arguments code fuel config = some result) :
    runCode oracle arguments code (fuel + 1) config = some result := by
  induction fuel generalizing config with
  | zero => cases hrun
  | succ fuel ih =>
      rw [runCode] at hrun ⊢
      split
      · next value hreturned =>
          rw [hreturned] at hrun
          exact hrun
      · next hreturned =>
          rw [hreturned] at hrun
          obtain ⟨middle, hstep, hrest⟩ := Option.bind_eq_some_iff.mp hrun
          exact Option.bind_eq_some_iff.mpr ⟨middle, hstep, ih hrest⟩

theorem runCode_le {fuel fuel' : Nat} (hle : fuel ≤ fuel') {result : Value × Machine ω}
    (hrun : runCode oracle arguments code fuel config = some result) :
    runCode oracle arguments code fuel' config = some result := by
  induction hle with
  | refl => exact hrun
  | step _ ih => exact runCode_succ ih

end

end Llvm

end Cnegative
