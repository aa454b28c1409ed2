import Cnegative.Library.Runs
import Cnegative.Semantics.Keeps
import Cnegative.Semantics.Scalar

namespace Cnegative

open Library.Runs (bind_eq_ok pure_eq_ok)

open Semantics (isZoneRelease)

/-! The core fragment: what has a meaning without memory. -/

/-- The builtins that belong to it, at which types, and the operands it allows an operator. -/
structure Fragment where
  offers : TypeRef → Name → Name → List TypeRef → Bool
  operands : BinaryOp → IrExpr → IrExpr → Bool

/-! Operands that an operator has a result for: a divisor is a literal that neither is zero nor
can overflow, and nothing is compared that has no value. -/

def divisorTotal : IrExpr → Bool
  | .int _ value => value ≠ 0 && value ≠ -1
  | _ => false

def operandsTotal (op : BinaryOp) (left right : IrExpr) : Bool :=
  match op with
  | .div | .mod => divisorTotal right
  | .equal | .notEqual => left.type ≠ .void
  | _ => true

def Fragment.IsTotal (fragment : Fragment) : Prop :=
  ∀ op left right, fragment.operands op left right = true → operandsTotal op left right = true

section

variable (fragment : Fragment)

def callOffered (type : TypeRef) (target : CallTarget) (moduleName functionName : Name)
    (arguments : List TypeRef) : Bool :=
  match target with
  | .builtin =>
      fragment.offers type moduleName functionName arguments &&
        !isZoneRelease target moduleName functionName
  | _ => true

mutual

def IrExpr.isCore : IrExpr → Bool
  | .int _ _ | .bool _ _ | .local _ _ => true
  | .unary _ _ operand => operand.isCore
  | .binary _ op left right => left.isCore && right.isCore && fragment.operands op left right
  | .ifExpr _ condition thenExpr elseExpr =>
      condition.isCore && thenExpr.isCore && elseExpr.isCore
  | .call type target moduleName functionName arguments =>
      allCore arguments &&
        callOffered fragment type target moduleName functionName (arguments.map IrExpr.type)
  | _ => false

def allCore : List IrExpr → Bool
  | [] => true
  | first :: rest => first.isCore && allCore rest

end

mutual

def IrStmt.isCore : IrStmt → Bool
  | .letStmt _ _ _ initializer => initializer.isCore fragment
  | .assign target value =>
      match target with
      | .local _ _ => value.isCore fragment
      | _ => false
  | .returnStmt value =>
      match value with
      | none => true
      | some value => value.isCore fragment
  | .expr value => value.isCore fragment
  | .ifStmt condition thenBlock elseBlock =>
      condition.isCore fragment && blockCore thenBlock && elseCore elseBlock
  | .whileStmt condition body => condition.isCore fragment && blockCore body
  | .loop body => blockCore body
  | .forStmt _ _ start stop body =>
      start.isCore fragment && stop.isCore fragment && blockCore body
  | .zone _ _ | .free _ => false

def elseCore : Option (List IrStmt) → Bool
  | none => true
  | some block => blockCore block

def blockCore : List IrStmt → Bool
  | [] => true
  | statement :: rest => statement.isCore && blockCore rest

end

end

namespace Semantics

open Scalar (applyUnary applyBinary applyInts applyBytes applyBools quotient)

variable {ω : Type}

/-! The operators on scalars need no memory. -/

theorem undefined_ne_ok {α : Type} {state after : State ω} {a : α} :
    (Eval.undefined : Eval ω α) state ≠ .ok a after := by
  intro hrun
  cases hrun

theorem asInt_eq_ok_iff {value : Value} {number : BitVec 64} {state after : State ω} :
    value.asInt state = .ok number after ↔ value = .int number ∧ state = after := by
  cases value with
  | int found => rw [Value.asInt, pure_eq_ok, Value.int.injEq]
  | u8 | bool | str | ptr | zone | aggregate | void | undef =>
      exact iff_of_false undefined_ne_ok (by simp)

theorem asBool_eq_ok_iff {value : Value} {truth : Bool} {state after : State ω} :
    value.asBool state = .ok truth after ↔ value = .bool truth ∧ state = after := by
  cases value with
  | bool found => rw [Value.asBool, pure_eq_ok, Value.bool.injEq]
  | int | u8 | str | ptr | zone | aggregate | void | undef =>
      exact iff_of_false undefined_ne_ok (by simp)

theorem evalUnary_applies {op : UnaryOp} {operand result : Value} {state after : State ω}
    (hrun : evalUnary op operand state = .ok result after) :
    applyUnary op operand = some result ∧ state = after := by
  cases op with
  | negate =>
      obtain ⟨number, middle, hnumber, hresult⟩ := bind_eq_ok.mp hrun
      obtain ⟨rfl, rfl⟩ := asInt_eq_ok_iff.mp hnumber
      obtain ⟨rfl, rfl⟩ := pure_eq_ok.mp hresult
      exact ⟨rfl, rfl⟩
  | not =>
      obtain ⟨truth, middle, htruth, hresult⟩ := bind_eq_ok.mp hrun
      obtain ⟨rfl, rfl⟩ := asBool_eq_ok_iff.mp htruth
      obtain ⟨rfl, rfl⟩ := pure_eq_ok.mp hresult
      exact ⟨rfl, rfl⟩

theorem ints_of_ok {left right result : Value} {next : BitVec 64 → BitVec 64 → Eval ω Value}
    {state after : State ω}
    (hrun : (do next (← left.asInt) (← right.asInt)) state = .ok result after) :
    ∃ first second, left = .int first ∧ right = .int second ∧
      next first second state = .ok result after := by
  obtain ⟨first, middle, hfirst, hrest⟩ := bind_eq_ok.mp hrun
  obtain ⟨second, middle', hsecond, hresult⟩ := bind_eq_ok.mp hrest
  obtain ⟨rfl, rfl⟩ := asInt_eq_ok_iff.mp hfirst
  obtain ⟨rfl, rfl⟩ := asInt_eq_ok_iff.mp hsecond
  exact ⟨first, second, rfl, rfl, hresult⟩

theorem divide_applies {operation : BitVec 64 → BitVec 64 → BitVec 64} {left right : BitVec 64}
    {result : Value} {state after : State ω}
    (hrun : divide operation left right state = .ok result after) :
    quotient operation left right = some result ∧ state = after := by
  unfold divide at hrun
  split at hrun
  · cases hrun
  · rename_i hzero
    split at hrun
    · exact absurd hrun undefined_ne_ok
    · rename_i hfits
      obtain ⟨rfl, rfl⟩ := pure_eq_ok.mp hrun
      refine ⟨if_neg ?_, rfl⟩
      rintro (heq | hmin)
      · exact hzero heq
      · exact hfits hmin

theorem equal_applies {left right : Value} {leftType rightType : TypeRef} {truth : Bool}
    {state after : State ω} (hleft : left.HasType leftType) (hright : right.HasType rightType)
    (hrun : Eval.equal left right state = .ok truth after) :
    applyBinary .equal left right = some (.bool truth) ∧
      applyBinary .notEqual left right = some (.bool (!truth)) ∧ state = after := by
  have hequal : left.equal right = some truth ∧ state = after := by
    cases hleft <;> cases hright <;> exact ofOption_eq_ok.mp hrun
  obtain ⟨hequal, rfl⟩ := hequal
  cases hleft with
  | void => cases hequal
  | int | u8 | bool =>
      cases hright <;>
        first
        | cases hequal; simp [applyBinary, applyInts, applyBytes, applyBools]
        | cases hequal

theorem compare_applies {op : BinaryOp} {signed : Int → Int → Bool} {left right result : Value}
    {state after : State ω}
    (hints : ∀ first second : BitVec 64,
      applyInts op first second = some (.bool (signed first.toInt second.toInt)))
    (hbytes : ∀ first second : BitVec 8,
      applyBytes op first second = some (.bool (signed first.toNat second.toNat)))
    (hrun : compare signed left right state = .ok result after) :
    applyBinary op left right = some result ∧ state = after := by
  unfold compare at hrun
  split at hrun
  · obtain ⟨rfl, rfl⟩ := pure_eq_ok.mp hrun
    exact ⟨hints _ _, rfl⟩
  · obtain ⟨rfl, rfl⟩ := pure_eq_ok.mp hrun
    exact ⟨hbytes _ _, rfl⟩
  · exact absurd hrun undefined_ne_ok

theorem evalBinary_applies {op : BinaryOp} {left right result : Value}
    {leftType rightType : TypeRef} {state after : State ω} (hleft : left.HasType leftType)
    (hright : right.HasType rightType)
    (hrun : evalBinary op left right state = .ok result after) :
    applyBinary op left right = some result ∧ state = after := by
  cases op with
  | add | sub | mul =>
      obtain ⟨first, second, rfl, rfl, hresult⟩ := ints_of_ok hrun
      obtain ⟨rfl, rfl⟩ := pure_eq_ok.mp hresult
      exact ⟨rfl, rfl⟩
  | div | mod =>
      obtain ⟨first, second, rfl, rfl, hresult⟩ := ints_of_ok hrun
      exact divide_applies hresult
  | equal =>
      obtain ⟨truth, middle, htruth, hresult⟩ := bind_eq_ok.mp hrun
      obtain ⟨hequal, -, rfl⟩ := equal_applies hleft hright htruth
      obtain ⟨rfl, rfl⟩ := pure_eq_ok.mp hresult
      exact ⟨hequal, rfl⟩
  | notEqual =>
      obtain ⟨truth, middle, htruth, hresult⟩ := bind_eq_ok.mp hrun
      obtain ⟨-, hnotEqual, rfl⟩ := equal_applies hleft hright htruth
      obtain ⟨rfl, rfl⟩ := pure_eq_ok.mp hresult
      exact ⟨hnotEqual, rfl⟩
  | less | lessEqual | greater | greaterEqual =>
      simp only [evalBinary] at hrun
      refine compare_applies (fun _ _ => rfl) (fun _ _ => ?_) hrun
      simp [applyBytes]
  | and | or => exact absurd hrun undefined_ne_ok

end Semantics

end Cnegative
