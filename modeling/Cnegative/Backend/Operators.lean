import Cnegative.Backend.Yields

namespace Cnegative

open Library (Line Code Chain Frame)

open Scalar (Oracle Outside Store Local applyUnary applyBinary applyInts applyBytes applyBools)

open Typing (unaryTyped binaryTyped)

namespace Llvm

variable {ω : Type} {oracle : Oracle ω} {arguments : List Value} {whole : Code Inst}
  {state : EmitState} {machine : Machine ω}

namespace Yields

theorem emitUnary {type operandType : TypeRef} {op : UnaryOp} {value : LlvmValue}
    {found result : Value} (hstate : state.terminated = false)
    (hholds : Holds machine state.nextTemp value found operandType)
    (htyped : unaryTyped type op operandType = true) (happly : applyUnary op found = some result) :
    Yields oracle arguments whole state machine (Llvm.emitUnary type op value)
      (Value.post result type machine.outside) := by
  cases op with
  | negate =>
      have htype : type = .int := by simpa using (Bool.and_eq_true_iff.mp htyped).2
      subst htype
      cases found with
      | int number =>
          cases happly
          have hzero : machine.operand (constantInt 0#64) = some (.int 0#64) := rfl
          refine .register hstate (fun _ => rfl) ?_ (.int _)
          simp [execute, hzero, hholds.operand, ArithOp.apply]
      | u8 | bool | str | ptr | zone | aggregate | void | undef => cases happly
  | not =>
      have htype : type = .bool := by simpa using (Bool.and_eq_true_iff.mp htyped).2
      subst htype
      cases found with
      | bool truth =>
          cases happly
          refine .register hstate (fun _ => rfl) ?_ (.bool _)
          simp [execute, hholds.operand]
      | int | u8 | str | ptr | zone | aggregate | void | undef => cases happly

/-- A comparison of two values of one type. -/
theorem compare {predicate : Predicate} {left right : LlvmValue} {first second : Value}
    {leftType rightType : TypeRef} {truth : Bool} (hstate : state.terminated = false)
    (hleft : Holds machine state.nextTemp left first leftType)
    (hright : Holds machine state.nextTemp right second rightType)
    (hcompare : predicate.compare first second = some truth) :
    Yields oracle arguments whole state machine
      (do return LlvmValue.register .bool (← Emit.result fun id => .icmp id predicate left right))
      (Value.post (.bool truth) .bool machine.outside) := by
  refine .register hstate (fun _ => rfl) ?_ (.bool _)
  simp [execute, hleft.operand, hright.operand, hcompare]

theorem emitBoolNot {value : LlvmValue} {truth : Bool} (hstate : state.terminated = false)
    (hholds : Holds machine state.nextTemp value (.bool truth) .bool) :
    Yields oracle arguments whole state machine (Llvm.emitBoolNot value)
      (Value.post (.bool (!truth)) .bool machine.outside) := by
  unfold Llvm.emitBoolNot
  split
  · rename_i constant hconstant
    have hsame : constant = truth := by
      have hoperand := hholds.operand
      rw [Machine.operand, hconstant] at hoperand
      simpa using hoperand
    subst hsame
    exact .pure hstate ⟨⟨rfl, by simp [constantBool, LlvmValue.registers], rfl, .bool _⟩, rfl⟩
  · refine .register hstate (fun _ => rfl) ?_ (.bool _)
    simp [execute, hholds.operand]

theorem emitValueEquality {structs : StructTable} {left right : LlvmValue} {first second : Value}
    {type rightType : TypeRef} {truth : Bool} (hstate : state.terminated = false)
    (hleft : Holds machine state.nextTemp left first type)
    (hright : Holds machine state.nextTemp right second rightType)
    (hscalar : type = .int ∨ type = .u8 ∨ type = .bool)
    (hcompare : Predicate.eq.compare first second = some truth) :
    Yields oracle arguments whole state machine
      (Llvm.emitValueEquality structs left right left.type)
      (Value.post (.bool truth) .bool machine.outside) := by
  rw [hleft.type_eq]
  rcases hscalar with rfl | rfl | rfl
  · exact compare hstate hleft hright hcompare
  · exact compare hstate hleft hright hcompare
  · exact compare hstate hleft hright hcompare

theorem arith {op : ArithOp} {left right : LlvmValue} {first second result : BitVec 64}
    {leftType rightType : TypeRef} (hstate : state.terminated = false)
    (hleft : Holds machine state.nextTemp left (.int first) leftType)
    (hright : Holds machine state.nextTemp right (.int second) rightType)
    (happly : op.apply first second = some result) :
    Yields oracle arguments whole state machine
      (do return LlvmValue.register .int (← Emit.result fun id => .arith id op left right))
      (Value.post (.int result) .int machine.outside) := by
  refine .register hstate (fun _ => rfl) ?_ (.int _)
  simp [execute, hleft.operand, hright.operand, happly]

end Yields

theorem quotient_eq_some {operation : BitVec 64 → BitVec 64 → BitVec 64} {left right : BitVec 64}
    {result : Value} (hquotient : Scalar.quotient operation left right = some result) :
    result = .int (operation left right) ∧
      ¬ (right = 0 ∨ (left = BitVec.intMin 64 ∧ right = -1)) := by
  unfold Scalar.quotient at hquotient
  split at hquotient
  · cases hquotient
  · rename_i hdefined
    cases hquotient
    exact ⟨rfl, hdefined⟩

namespace Yields

variable {structs : StructTable} {type leftType rightType : TypeRef} {op : BinaryOp}
  {left right : LlvmValue} {result : Value}

theorem notEqual {first second : Value} {truth : Bool} (hstate : state.terminated = false)
    (hleft : Holds machine state.nextTemp left first leftType)
    (hright : Holds machine state.nextTemp right second rightType)
    (hscalar : leftType = .int ∨ leftType = .u8 ∨ leftType = .bool)
    (hcompare : Predicate.eq.compare first second = some truth) :
    Yields oracle arguments whole state machine
      (do Llvm.emitBoolNot (← Llvm.emitValueEquality structs left right left.type))
      (Value.post (.bool (!truth)) .bool machine.outside) := by
  refine .bind (emitValueEquality hstate hleft hright hscalar hcompare) ?_
  intro middle machine' equality hopen _ _ hpost
  have hnot := @emitBoolNot _ oracle arguments whole middle machine' equality truth hopen hpost.1
  rw [hpost.2] at hnot
  exact hnot

theorem ints {first second : BitVec 64} (hstate : state.terminated = false)
    (hleft : Holds machine state.nextTemp left (.int first) leftType)
    (hright : Holds machine state.nextTemp right (.int second) rightType)
    (htyped : binaryTyped type op leftType rightType = true)
    (happly : applyInts op first second = some result) :
    Yields oracle arguments whole state machine (Llvm.emitBinary structs type op left right)
      (Value.post result type machine.outside) := by
  have hint : leftType = .int := by
    have hhas := hleft.hasType
    cases hhas
    rfl
  subst hint
  have hleftType : left.type = .int := hleft.type_eq
  unfold Llvm.emitBinary
  cases op with
  | add | sub | mul =>
      have htype : type = .int := by simpa using (Bool.and_eq_true_iff.mp htyped).2
      subst htype
      cases happly
      exact arith hstate hleft hright rfl
  | div | mod =>
      have htype : type = .int := by simpa using (Bool.and_eq_true_iff.mp htyped).2
      subst htype
      obtain ⟨rfl, hdefined⟩ := quotient_eq_some happly
      exact arith hstate hleft hright (if_neg hdefined)
  | equal =>
      have htype : type = .bool := by simpa using (Bool.and_eq_true_iff.mp htyped).2
      subst htype
      cases happly
      exact emitValueEquality hstate hleft hright (.inl rfl) rfl
  | notEqual =>
      have htype : type = .bool := by simpa using (Bool.and_eq_true_iff.mp htyped).2
      subst htype
      cases happly
      have hnot := @notEqual _ oracle arguments whole state machine structs .int rightType left
        right (.int first) (.int second) (decide (first = second)) hstate hleft hright (.inl rfl) rfl
      simpa using hnot
  | less | lessEqual | greater | greaterEqual =>
      have htype : type = .bool := by simpa using (Bool.and_eq_true_iff.mp htyped).2
      subst htype
      cases happly
      simp only [arithOp, comparePredicate, hleftType]
      exact compare hstate hleft hright rfl
  | and | or => cases happly

theorem bytes {first second : BitVec 8} (hstate : state.terminated = false)
    (hleft : Holds machine state.nextTemp left (.u8 first) leftType)
    (hright : Holds machine state.nextTemp right (.u8 second) rightType)
    (htyped : binaryTyped type op leftType rightType = true)
    (happly : applyBytes op first second = some result) :
    Yields oracle arguments whole state machine (Llvm.emitBinary structs type op left right)
      (Value.post result type machine.outside) := by
  have hbyte : leftType = .u8 := by
    have hhas := hleft.hasType
    cases hhas
    rfl
  subst hbyte
  have hleftType : left.type = .u8 := hleft.type_eq
  unfold Llvm.emitBinary
  cases op with
  | equal =>
      have htype : type = .bool := by simpa using (Bool.and_eq_true_iff.mp htyped).2
      subst htype
      cases happly
      exact emitValueEquality hstate hleft hright (.inr (.inl rfl)) rfl
  | notEqual =>
      have htype : type = .bool := by simpa using (Bool.and_eq_true_iff.mp htyped).2
      subst htype
      cases happly
      have hnot := @notEqual _ oracle arguments whole state machine structs .u8 rightType left
        right (.u8 first) (.u8 second) (decide (first = second)) hstate hleft hright
        (.inr (.inl rfl)) rfl
      simpa using hnot
  | less | lessEqual | greater | greaterEqual =>
      have htype : type = .bool := by simpa using (Bool.and_eq_true_iff.mp htyped).2
      subst htype
      cases happly
      simp only [arithOp, comparePredicate, hleftType]
      exact compare hstate hleft hright rfl
  | add | sub | mul | div | mod | and | or => cases happly

theorem bools {first second : Bool} (hstate : state.terminated = false)
    (hleft : Holds machine state.nextTemp left (.bool first) leftType)
    (hright : Holds machine state.nextTemp right (.bool second) rightType)
    (htyped : binaryTyped type op leftType rightType = true)
    (happly : applyBools op first second = some result) :
    Yields oracle arguments whole state machine (Llvm.emitBinary structs type op left right)
      (Value.post result type machine.outside) := by
  have hbool : leftType = .bool := by
    have hhas := hleft.hasType
    cases hhas
    rfl
  subst hbool
  unfold Llvm.emitBinary
  cases op with
  | equal =>
      have htype : type = .bool := by simpa using (Bool.and_eq_true_iff.mp htyped).2
      subst htype
      cases happly
      exact emitValueEquality hstate hleft hright (.inr (.inr rfl))
        (by cases first <;> cases second <;> rfl)
  | notEqual =>
      have htype : type = .bool := by simpa using (Bool.and_eq_true_iff.mp htyped).2
      subst htype
      cases happly
      have hnot := @notEqual _ oracle arguments whole state machine structs .bool rightType left
        right (.bool first) (.bool second) (decide (first = second)) hstate hleft hright
        (.inr (.inr rfl)) (by cases first <;> cases second <;> rfl)
      simpa using hnot
  | add | sub | mul | div | mod | less | lessEqual | greater | greaterEqual | and | or =>
      cases happly

theorem emitBinary {first second : Value} (hstate : state.terminated = false)
    (hleft : Holds machine state.nextTemp left first leftType)
    (hright : Holds machine state.nextTemp right second rightType)
    (htyped : binaryTyped type op leftType rightType = true)
    (happly : applyBinary op first second = some result) :
    Yields oracle arguments whole state machine (Llvm.emitBinary structs type op left right)
      (Value.post result type machine.outside) := by
  unfold applyBinary at happly
  split at happly
  · exact ints hstate hleft hright htyped happly
  · exact bytes hstate hleft hright htyped happly
  · exact bools hstate hleft hright htyped happly
  · cases happly

end Yields

end Llvm

end Cnegative
