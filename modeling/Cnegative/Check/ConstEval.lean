import Cnegative.Library.Signed
import Cnegative.Resolution.Checker

namespace Cnegative

namespace Check

open Checker (Resolved resolveConstInModule resolveSourceNamedConst)
open Library.Signed

/-! `cn_eval_const_int_expr_in_module`: the value of an array size or a repeat count. -/

/-- How an evaluation ends; `undefined` is an operation that C does not define. -/
inductive Evaluated where
  | unfinished
  | undefined
  | failed
  | value (word : BitVec 64)
  deriving DecidableEq, Repr

namespace Evaluated

def bind (evaluated : Evaluated) (next : BitVec 64 → Evaluated) : Evaluated :=
  match evaluated with
  | .value word => next word
  | other => other

/-- A value, or none where C does not define the operation. -/
def ofC : Option (BitVec 64) → Evaluated
  | some word => .value word
  | none => .undefined

end Evaluated

def isIntegerLike (type : TypeRef) : Bool := type = .int || type = .u8

/-- The operators that the evaluation knows. -/
def constOperation : BinaryOp → Option Operation
  | .add => some .add
  | .sub => some .sub
  | .mul => some .mul
  | .div => some .div
  | .mod => some .mod
  | _ => none

def evalConstBinary (op : BinaryOp) (left right : BitVec 64) : Evaluated :=
  match constOperation op with
  | none => .failed
  | some operation =>
      if (operation = .div ∨ operation = .mod) ∧ right = 0 then .failed
      else .ofC (evaluate operation left right)

section Evaluation

variable (project : Project) (checks : Resolved ConstDecl → Bool)

def sizeConst? (self : ModuleId) : Expr → Option (Resolved ConstDecl)
  | .name name => resolveConstInModule project self name
  | .field (.name moduleName) fieldName => resolveSourceNamedConst project self moduleName fieldName
  | _ => none

/-- The evaluation, with at most `fuel` nested calls; `checks` is the answer of
`cn_check_const_decl`. -/
def evalConst : Nat → ModuleId → Expr → Evaluated
  | 0, _, _ => .unfinished
  | fuel + 1, self, expression =>
      match expression with
      | .int value => .value value
      | .name _ | .field _ _ =>
          match sizeConst? project self expression with
          | none => .failed
          | some resolved =>
              if checks resolved && isIntegerLike resolved.2.type then
                evalConst fuel resolved.1 resolved.2.initializer
              else .failed
      | .unary .negate operand =>
          (evalConst fuel self operand).bind fun value => .ofC (evaluate .sub 0 value)
      | .binary op left right =>
          (evalConst fuel self left).bind fun first =>
            (evalConst fuel self right).bind fun second => evalConstBinary op first second
      | _ => .failed

/-! The same expression over unbounded integers. -/

/-- The value of a size expression in exact arithmetic, where it has one. -/
def exactSize : Nat → ModuleId → Expr → Option Int
  | 0, _, _ => none
  | fuel + 1, self, expression =>
      match expression with
      | .int value => some value.toInt
      | .name _ | .field _ _ =>
          (sizeConst? project self expression).bind fun resolved =>
            if checks resolved && isIntegerLike resolved.2.type then
              exactSize fuel resolved.1 resolved.2.initializer
            else none
      | .unary .negate operand => (exactSize fuel self operand).bind fun value => some (-value)
      | .binary op left right =>
          (exactSize fuel self left).bind fun first =>
            (exactSize fuel self right).bind fun second =>
              (constOperation op).bind fun operation => exact operation first second
      | _ => none

/-- What an operator may be applied to: the result fits, or the evaluation stops at a zero. -/
def operatorFits (op : BinaryOp) (left right : Int) : Bool :=
  match constOperation op with
  | none => true
  | some operation =>
      ((operation = .div ∨ operation = .mod) ∧ right = 0) || decide (Defined operation left right)

def sizeFits : Nat → ModuleId → Expr → Bool
  | 0, _, _ => true
  | fuel + 1, self, expression =>
      match expression with
      | .name _ | .field _ _ =>
          match sizeConst? project self expression with
          | none => true
          | some resolved =>
              if checks resolved && isIntegerLike resolved.2.type then
                sizeFits fuel resolved.1 resolved.2.initializer
              else true
      | .unary .negate operand =>
          sizeFits fuel self operand &&
            ((exactSize project checks fuel self operand).all fun value =>
              decide (InWord (-value)))
      | .binary op left right =>
          sizeFits fuel self left &&
            ((exactSize project checks fuel self left).all fun first =>
              sizeFits fuel self right &&
                ((exactSize project checks fuel self right).all fun second =>
                  operatorFits op first second))
      | _ => true

end Evaluation

/-! An evaluation in range gives the exact value. -/

/-- An evaluation beside the exact value and whether all steps fit. -/
inductive Agrees : Evaluated → Option Int → Bool → Prop
  | undefined {value : Option Int} : Agrees .undefined value false
  | value (word : BitVec 64) : Agrees (.value word) (some word.toInt) true
  | none {evaluated : Evaluated} (hundefined : evaluated ≠ .undefined)
      (hvalue : ∀ word, evaluated ≠ .value word) : Agrees evaluated none true

namespace Agrees

theorem bind {evaluated : Evaluated} {value : Option Int} {fits : Bool}
    {next : BitVec 64 → Evaluated} (nextValue : Int → Option Int) (nextFits : Int → Bool)
    (hfirst : Agrees evaluated value fits)
    (hnext : ∀ word : BitVec 64, Agrees (next word) (nextValue word.toInt) (nextFits word.toInt)) :
    Agrees (evaluated.bind next) (value.bind nextValue) (fits && value.all nextFits) := by
  cases hfirst with
  | undefined => exact .undefined
  | value word => exact hnext word
  | none hundefined hvalue =>
      cases evaluated with
      | undefined => exact absurd rfl hundefined
      | value word => exact absurd rfl (hvalue word)
      | _ => exact .none (by simp [Evaluated.bind]) (by simp [Evaluated.bind])

theorem ofC (operation : Operation) (left right : BitVec 64) :
    Agrees (.ofC (evaluate operation left right)) (exact operation left.toInt right.toInt)
      (decide (Defined operation left.toInt right.toInt)) := by
  by_cases hdefined : Defined operation left.toInt right.toInt
  · rw [evaluate_eq, if_pos hdefined, exact_of_defined hdefined, decide_eq_true hdefined]
    exact .value _
  · rw [evaluate_eq, if_neg hdefined, decide_eq_false hdefined]
    exact .undefined

end Agrees

theorem toInt_eq_zero_iff (word : BitVec 64) : word.toInt = 0 ↔ word = 0 := by
  rw [← BitVec.toInt_inj]
  rfl

theorem evalConstBinary_agrees (op : BinaryOp) (left right : BitVec 64) :
    Agrees (evalConstBinary op left right)
      ((constOperation op).bind fun operation => exact operation left.toInt right.toInt)
      (operatorFits op left.toInt right.toInt) := by
  unfold evalConstBinary operatorFits
  cases constOperation op with
  | none => exact .none (by simp) (by simp)
  | some operation =>
      dsimp only
      rw [Option.bind_some]
      by_cases hzero : (operation = .div ∨ operation = .mod) ∧ right.toInt = 0
      · have hword : (operation = .div ∨ operation = .mod) ∧ right = 0 :=
          ⟨hzero.1, (toInt_eq_zero_iff right).mp hzero.2⟩
        have hnone : exact operation left.toInt right.toInt = none := by
          rcases hzero.1 with rfl | rfl
          · exact if_pos hzero.2
          · exact if_pos hzero.2
        rw [if_pos hword, hnone, decide_eq_true hzero, Bool.true_or]
        exact .none (by simp) (by simp)
      · have hword : ¬ ((operation = .div ∨ operation = .mod) ∧ right = 0) :=
          fun h => hzero ⟨h.1, (toInt_eq_zero_iff right).mpr h.2⟩
        rw [if_neg hword, decide_eq_false hzero, Bool.false_or]
        exact .ofC operation left right

section Runs

variable (project : Project) (checks : Resolved ConstDecl → Bool)

theorem evalConst_agrees (fuel : Nat) (self : ModuleId) (expression : Expr) :
    Agrees (evalConst project checks fuel self expression)
      (exactSize project checks fuel self expression)
      (sizeFits project checks fuel self expression) := by
  induction fuel generalizing self expression with
  | zero => exact .none (by simp [evalConst]) (by simp [evalConst])
  | succ fuel ih =>
      have hconst : ∀ found : Option (Resolved ConstDecl), Agrees
          (match found with
            | none => .failed
            | some resolved =>
                if checks resolved && isIntegerLike resolved.2.type then
                  evalConst project checks fuel resolved.1 resolved.2.initializer
                else .failed)
          (found.bind fun resolved =>
            if checks resolved && isIntegerLike resolved.2.type then
              exactSize project checks fuel resolved.1 resolved.2.initializer
            else none)
          (match found with
            | none => true
            | some resolved =>
                if checks resolved && isIntegerLike resolved.2.type then
                  sizeFits project checks fuel resolved.1 resolved.2.initializer
                else true) := by
        intro found
        cases found with
        | none => exact .none (by simp) (by simp)
        | some resolved =>
            dsimp only
            rw [Option.bind_some]
            split
            · exact ih _ _
            · exact .none (by simp) (by simp)
      cases expression with
      | int word => exact .value word
      | name name => exact hconst _
      | field base fieldName => exact hconst _
      | unary op operand =>
          cases op with
          | not => exact .none (by simp [evalConst]) (by simp [evalConst])
          | negate =>
              refine (ih self operand).bind (fun value => some (-value))
                (fun value => decide (InWord (-value))) fun word => ?_
              have hsub := Agrees.ofC .sub 0 word
              simpa [exact, Defined] using hsub
      | binary op left right =>
          refine (ih self left).bind
            (fun first => (exactSize project checks fuel self right).bind fun second =>
              (constOperation op).bind fun operation => exact operation first second)
            (fun first => sizeFits project checks fuel self right &&
              (exactSize project checks fuel self right).all fun second =>
                operatorFits op first second) fun first => ?_
          exact (ih self right).bind
            (fun second => (constOperation op).bind fun operation =>
              exact operation first.toInt second)
            (fun second => operatorFits op first.toInt second) fun second =>
              evalConstBinary_agrees op first second
      | _ => exact .none (by simp [evalConst]) (by simp [evalConst])

/-- An evaluation is defined just when no step leaves the range, and is exact then. -/
theorem evalConst_defined_iff (fuel : Nat) (self : ModuleId) (expression : Expr) :
    evalConst project checks fuel self expression ≠ .undefined ↔
      sizeFits project checks fuel self expression = true := by
  have hagrees := evalConst_agrees project checks fuel self expression
  generalize evalConst project checks fuel self expression = evaluated at hagrees ⊢
  generalize exactSize project checks fuel self expression = value at hagrees
  generalize sizeFits project checks fuel self expression = fits at hagrees ⊢
  cases hagrees with
  | undefined => simp
  | value word => simp
  | none hundefined hvalue => exact iff_of_true hundefined rfl

theorem evalConst_value {fuel : Nat} {self : ModuleId} {expression : Expr} {word : BitVec 64}
    (hvalue : evalConst project checks fuel self expression = .value word) :
    exactSize project checks fuel self expression = some word.toInt := by
  have hagrees := evalConst_agrees project checks fuel self expression
  rw [hvalue] at hagrees
  generalize exactSize project checks fuel self expression = value at hagrees ⊢
  generalize sizeFits project checks fuel self expression = fits at hagrees
  cases hagrees with
  | value => rfl
  | none _ hnot => exact absurd rfl (hnot word)

end Runs

end Check

end Cnegative
