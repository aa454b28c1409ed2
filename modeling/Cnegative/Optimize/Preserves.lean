import Cnegative.Optimize.Constant
import Cnegative.Typing.Ir
import Mathlib.Data.List.TakeWhile

namespace Cnegative

namespace Optimize

open Semantics
open Typing (TypeEnv exprTyped itemsTyped boundTyped fieldsTyped unaryTyped binaryTyped)

variable {ω : Type}

/-! Folding one node keeps its value. -/

section Nodes

variable {program : IrProgram} {structs : StructTable} {callee : Callee ω} {typeEnv : TypeEnv}

/-- What a fold may not change of the node it replaces; `constant` is what the
node is as a constant. -/
structure SameNode (program : IrProgram) (structs : StructTable) (callee : Callee ω)
    (typeEnv : TypeEnv) (node : IrExpr) (constant : Option Constant) (folded : IrExpr) : Prop where
  typed : exprTyped program typeEnv folded = true
  type_eq : folded.type = node.type
  literal_eq : literal? folded = constant
  value_eq : ∀ env,
    (denote structs callee env folded).value = (denote structs callee env node).value

theorem SameNode.refl {node : IrExpr} (htyped : exprTyped program typeEnv node = true) :
    SameNode program structs callee typeEnv node (literal? node) node :=
  ⟨htyped, rfl, rfl, fun _ => rfl⟩

theorem place_of_rvalue {expression : IrExpr} (hplace : expression.isPlace = false) (env : Env) :
    (denote structs callee env expression).place =
      (denote structs callee env expression).value >>= Eval.allocate .stack := by
  cases expression with
  | «local» _ _ | field _ _ _ | index _ _ _ | deref _ _ => simp [IrExpr.isPlace] at hplace
  | binary type op left right => cases op <;> rfl
  | _ => rfl

variable (structs callee) in
theorem foldUnary_same {type : TypeRef} {op : UnaryOp} {operand : IrExpr}
    (htyped : exprTyped program typeEnv (.unary type op operand) = true)
    (hdefined : unaryDefined op (literal? operand) = true) :
    ∃ folded, foldUnary type op operand = some folded ∧ folded.isPlace = false ∧
      SameNode program structs callee typeEnv (.unary type op operand)
        ((literal? operand).bind (unaryConstant op)) folded := by
  have hparts := htyped
  simp only [exprTyped, Bool.and_eq_true] at hparts
  obtain ⟨-, hunary⟩ := hparts
  cases op with
  | negate =>
      simp only [unaryTyped, Bool.and_eq_true, decide_eq_true_eq] at hunary
      obtain ⟨hoperand, rfl⟩ := hunary
      cases operand with
      | int operandType value =>
          have hno : value.negOverflow = false := by simpa [unaryDefined, literal?] using hdefined
          simp only [IrExpr.type] at hoperand
          subst hoperand
          exact ⟨.int .int (-value), by simp [foldUnary, checked, hno], rfl,
            by simp [exprTyped], rfl, rfl, fun env => rfl⟩
      | bool _ _ => exact ⟨_, rfl, rfl, .refl htyped⟩
      | _ => exact ⟨_, rfl, rfl, .refl htyped⟩
  | not =>
      simp only [unaryTyped, Bool.and_eq_true, decide_eq_true_eq] at hunary
      obtain ⟨-, rfl⟩ := hunary
      cases operand with
      | bool operandType value =>
          exact ⟨.bool .bool (!value), rfl, rfl, by simp [exprTyped], rfl, rfl, fun env => rfl⟩
      | _ => exact ⟨_, rfl, rfl, .refl htyped⟩

/-! A `u8` literal is the same number with and without its upper bits. -/

theorem toInt_of_small {value : BitVec 64} (hsmall : value.toNat < 256) :
    value.toInt = (value.setWidth 8).toNat := by
  rw [BitVec.toInt_eq_toNat_of_lt (by omega), BitVec.toNat_setWidth, Nat.mod_eq_of_lt hsmall]

theorem setWidth_eq_iff {left right : BitVec 64} (hleft : left.toNat < 256)
    (hright : right.toNat < 256) : left.setWidth 8 = right.setWidth 8 ↔ left = right := by
  rw [← BitVec.toNat_inj, ← BitVec.toNat_inj, BitVec.toNat_setWidth, BitVec.toNat_setWidth,
    Nat.mod_eq_of_lt hleft, Nat.mod_eq_of_lt hright]

/-- What typing says of an integer literal. -/
def LiteralFits (type : TypeRef) (value : BitVec 64) : Prop :=
  type = .int ∨ type = .u8 ∧ value.toNat < 256

theorem compare_ofInt {type : TypeRef} {lhs rhs : BitVec 64} (hleft : LiteralFits type lhs)
    (hright : LiteralFits type rhs) (test : Int → Int → Bool) :
    (compare test (Value.ofInt type lhs) (Value.ofInt type rhs) : Eval ω Value) =
      pure (.bool (test lhs.toInt rhs.toInt)) := by
  rcases hleft with rfl | ⟨rfl, hleft⟩
  · rfl
  · have hright : rhs.toNat < 256 := by simpa [LiteralFits] using hright
    rw [toInt_of_small hleft, toInt_of_small hright]
    rfl

theorem equal_ofInt {type : TypeRef} {lhs rhs : BitVec 64} (hleft : LiteralFits type lhs)
    (hright : LiteralFits type rhs) :
    (Eval.equal (Value.ofInt type lhs) (Value.ofInt type rhs) : Eval ω Bool) =
      pure (decide (lhs = rhs)) := by
  rcases hleft with rfl | ⟨rfl, hleft⟩
  · rfl
  · have hright : rhs.toNat < 256 := by simpa [LiteralFits] using hright
    rw [← decide_eq_decide.mpr (setWidth_eq_iff hleft hright)]
    rfl

theorem evalBinary_equal {left right : Value} {result : Bool}
    (hequal : (Eval.equal left right : Eval ω Bool) = pure result) :
    (evalBinary .equal left right : Eval ω Value) = pure (.bool result) := by
  simp only [evalBinary, hequal]
  rfl

theorem evalBinary_notEqual {left right : Value} {result : Bool}
    (hequal : (Eval.equal left right : Eval ω Bool) = pure result) :
    (evalBinary .notEqual left right : Eval ω Value) = pure (.bool (!result)) := by
  simp only [evalBinary, hequal]
  rfl

theorem LiteralFits.type_eq {type other : TypeRef} {value : BitVec 64}
    (hfits : LiteralFits type value) (hcomparable : Typing.comparable type other = true) :
    type = other := by
  rcases hfits with rfl | ⟨rfl, -⟩ <;>
    simpa [Typing.comparable, TypeRef.isPtr] using hcomparable

theorem divide_eq {operation : BitVec 64 → BitVec 64 → BitVec 64} {lhs rhs : BitVec 64}
    (hzero : rhs ≠ 0) (hno : divisionOverflows lhs rhs = false) :
    (divide operation lhs rhs : Eval ω Value) = pure (.int (operation lhs rhs)) := by
  have hoverflow : ¬ (lhs = BitVec.intMin 64 ∧ rhs = -1) := by
    simpa [divisionOverflows] using hno
  rw [divide, if_neg hzero, if_neg hoverflow]

theorem compare_same {type leftType rightType : TypeRef} {op : BinaryOp} {lhs rhs : BitVec 64}
    (hleft : LiteralFits leftType lhs) (hright : LiteralFits rightType rhs)
    (hbinary : (Typing.isIntOrU8 leftType && leftType = rightType && type = .bool) = true)
    (test : Int → Int → Bool)
    (hvalue : ∀ env, (denote structs callee env
        (.binary type op (.int leftType lhs) (.int rightType rhs))).value =
      compare test (Value.ofInt leftType lhs) (Value.ofInt rightType rhs)) :
    SameNode program structs callee typeEnv
      (.binary type op (.int leftType lhs) (.int rightType rhs))
      (some (.bool (test lhs.toInt rhs.toInt))) (.bool type (test lhs.toInt rhs.toInt)) := by
  simp only [Bool.and_eq_true, decide_eq_true_eq] at hbinary
  obtain ⟨⟨-, rfl⟩, rfl⟩ := hbinary
  refine ⟨by simp [exprTyped], rfl, rfl, fun env => ?_⟩
  rw [hvalue, compare_ofInt hleft hright]
  rfl

theorem foldInts_same {type leftType rightType : TypeRef} {op : BinaryOp} {lhs rhs : BitVec 64}
    (htyped : exprTyped program typeEnv
      (.binary type op (.int leftType lhs) (.int rightType rhs)) = true)
    (hdefined : binaryDefined op (some (.int lhs)) (some (.int rhs)) = true) :
    ∃ folded, foldInts type op (.int leftType lhs) (.int rightType rhs) lhs rhs = some folded ∧
      folded.isPlace = false ∧
      SameNode program structs callee typeEnv
        (.binary type op (.int leftType lhs) (.int rightType rhs)) (intsConstant op lhs rhs)
        folded := by
  have hparts := htyped
  simp only [exprTyped, IrExpr.type, Bool.and_eq_true, Bool.or_eq_true, decide_eq_true_eq]
    at hparts
  obtain ⟨⟨hleft, hright⟩, hbinary⟩ := hparts
  cases op with
  | add =>
      simp only [binaryTyped, Bool.and_eq_true, decide_eq_true_eq] at hbinary
      obtain ⟨⟨rfl, rfl⟩, rfl⟩ := hbinary
      have hno : lhs.saddOverflow rhs = false := by simpa [binaryDefined] using hdefined
      exact ⟨.int .int (lhs + rhs), by simp [foldInts, checked, hno], rfl, by simp [exprTyped],
        rfl, rfl, fun env => rfl⟩
  | sub =>
      simp only [binaryTyped, Bool.and_eq_true, decide_eq_true_eq] at hbinary
      obtain ⟨⟨rfl, rfl⟩, rfl⟩ := hbinary
      have hno : lhs.ssubOverflow rhs = false := by simpa [binaryDefined] using hdefined
      exact ⟨.int .int (lhs - rhs), by simp [foldInts, checked, hno], rfl, by simp [exprTyped],
        rfl, rfl, fun env => rfl⟩
  | mul =>
      simp only [binaryTyped, Bool.and_eq_true, decide_eq_true_eq] at hbinary
      obtain ⟨⟨rfl, rfl⟩, rfl⟩ := hbinary
      have hno : lhs.smulOverflow rhs = false := by simpa [binaryDefined] using hdefined
      exact ⟨.int .int (lhs * rhs), by simp [foldInts, checked, hno], rfl, by simp [exprTyped],
        rfl, rfl, fun env => rfl⟩
  | div =>
      simp only [binaryTyped, Bool.and_eq_true, decide_eq_true_eq] at hbinary
      obtain ⟨⟨rfl, rfl⟩, rfl⟩ := hbinary
      have hno : divisionOverflows lhs rhs = false := by simpa [binaryDefined] using hdefined
      by_cases hzero : rhs = 0#64
      · exact ⟨.binary .int .div (.int .int lhs) (.int .int rhs), by simp [foldInts, hzero], rfl,
          by simpa [intsConstant, hzero, literal?] using SameNode.refl htyped⟩
      · exact ⟨.int .int (lhs.sdiv rhs), by simp [foldInts, checked, hno, hzero], rfl,
          by simp [exprTyped], rfl, by simp [intsConstant, hzero, literal?],
          fun env => (divide_eq hzero hno).symm⟩
  | mod =>
      simp only [binaryTyped, Bool.and_eq_true, decide_eq_true_eq] at hbinary
      obtain ⟨⟨rfl, rfl⟩, rfl⟩ := hbinary
      have hno : divisionOverflows lhs rhs = false := by simpa [binaryDefined] using hdefined
      by_cases hzero : rhs = 0#64
      · exact ⟨.binary .int .mod (.int .int lhs) (.int .int rhs), by simp [foldInts, hzero], rfl,
          by simpa [intsConstant, hzero, literal?] using SameNode.refl htyped⟩
      · exact ⟨.int .int (lhs.srem rhs), by simp [foldInts, checked, hno, hzero], rfl,
          by simp [exprTyped], rfl, by simp [intsConstant, hzero, literal?],
          fun env => (divide_eq hzero hno).symm⟩
  | less =>
      exact ⟨_, rfl, rfl, compare_same hleft hright hbinary (fun lhs rhs => lhs < rhs)
        fun env => rfl⟩
  | lessEqual =>
      exact ⟨_, rfl, rfl, compare_same hleft hright hbinary (fun lhs rhs => lhs ≤ rhs)
        fun env => rfl⟩
  | greater =>
      exact ⟨_, rfl, rfl, compare_same hleft hright hbinary (fun lhs rhs => rhs < lhs)
        fun env => rfl⟩
  | greaterEqual =>
      exact ⟨_, rfl, rfl, compare_same hleft hright hbinary (fun lhs rhs => rhs ≤ lhs)
        fun env => rfl⟩
  | equal =>
      simp only [binaryTyped, Bool.and_eq_true, decide_eq_true_eq] at hbinary
      obtain ⟨hcomparable, rfl⟩ := hbinary
      obtain rfl := LiteralFits.type_eq hleft hcomparable
      refine ⟨.bool .bool (lhs = rhs), rfl, rfl, by simp [exprTyped], rfl, rfl, fun env => ?_⟩
      exact (evalBinary_equal (equal_ofInt hleft hright)).symm
  | notEqual =>
      simp only [binaryTyped, Bool.and_eq_true, decide_eq_true_eq] at hbinary
      obtain ⟨hcomparable, rfl⟩ := hbinary
      obtain rfl := LiteralFits.type_eq hleft hcomparable
      refine ⟨.bool .bool (lhs ≠ rhs), rfl, rfl, by simp [exprTyped], rfl, rfl, fun env => ?_⟩
      rw [decide_not]
      exact (evalBinary_notEqual (equal_ofInt hleft hright)).symm
  | and | or => exact ⟨_, rfl, rfl, .refl htyped⟩

theorem equal_strings {lhs rhs : List UInt8} (hleft : 0 ∉ lhs) (hright : 0 ∉ rhs) :
    (Eval.equal (.str none lhs) (.str none rhs) : Eval ω Bool) = pure (decide (lhs = rhs)) := by
  have hwhole (bytes : List UInt8) (hbytes : 0 ∉ bytes) : Value.cstring bytes = bytes := by
    rw [Value.cstring, List.takeWhile_eq_self_iff]
    intro byte hbyte
    simpa using ne_of_mem_of_not_mem hbyte hbytes
  change (Eval.ofOption (some (decide (Value.cstring lhs = Value.cstring rhs))) : Eval ω Bool) = _
  rw [hwhole lhs hleft, hwhole rhs hright]
  rfl

theorem foldBools_same {type leftType rightType : TypeRef} {op : BinaryOp} {lhs rhs : Bool}
    (htyped : exprTyped program typeEnv
      (.binary type op (.bool leftType lhs) (.bool rightType rhs)) = true) :
    (foldBools type op (.bool leftType lhs) (.bool rightType rhs) lhs rhs).isPlace = false ∧
      SameNode program structs callee typeEnv
        (.binary type op (.bool leftType lhs) (.bool rightType rhs))
        (binaryConstant op (.bool lhs) (.bool rhs))
        (foldBools type op (.bool leftType lhs) (.bool rightType rhs) lhs rhs) := by
  have hparts := htyped
  simp only [exprTyped, IrExpr.type, Bool.and_eq_true, decide_eq_true_eq] at hparts
  obtain ⟨⟨rfl, rfl⟩, hbinary⟩ := hparts
  cases op with
  | equal | notEqual =>
      simp only [binaryTyped, Bool.and_eq_true, decide_eq_true_eq] at hbinary
      obtain ⟨-, rfl⟩ := hbinary
      exact ⟨rfl, by simp [foldBools, exprTyped], rfl, rfl, fun env => by
        cases lhs <;> cases rhs <;> rfl⟩
  | and | or =>
      simp only [binaryTyped, Bool.and_eq_true, decide_eq_true_eq] at hbinary
      obtain ⟨-, rfl⟩ := hbinary
      exact ⟨rfl, by simp [foldBools, exprTyped], rfl, rfl, fun env => by
        cases lhs <;> cases rhs <;> rfl⟩
  | _ => exact ⟨rfl, .refl htyped⟩

theorem foldStrings_same {type leftType rightType : TypeRef} {op : BinaryOp}
    {lhs rhs : List UInt8}
    (htyped : exprTyped program typeEnv
      (.binary type op (.string leftType lhs) (.string rightType rhs)) = true) :
    (foldStrings type op (.string leftType lhs) (.string rightType rhs) lhs rhs).isPlace = false ∧
      SameNode program structs callee typeEnv
        (.binary type op (.string leftType lhs) (.string rightType rhs))
        (binaryConstant op (.string lhs) (.string rhs))
        (foldStrings type op (.string leftType lhs) (.string rightType rhs) lhs rhs) := by
  have hparts := htyped
  simp only [exprTyped, IrExpr.type, Bool.and_eq_true, decide_eq_true_eq, Bool.not_eq_true',
    List.contains_eq_mem, decide_eq_false_iff_not] at hparts
  obtain ⟨⟨⟨rfl, hleft⟩, rfl, hright⟩, hbinary⟩ := hparts
  cases op with
  | equal =>
      simp only [binaryTyped, Bool.and_eq_true, decide_eq_true_eq] at hbinary
      obtain ⟨-, rfl⟩ := hbinary
      refine ⟨rfl, by simp [foldStrings, exprTyped], rfl, rfl, fun env => ?_⟩
      exact (evalBinary_equal (equal_strings hleft hright)).symm
  | notEqual =>
      simp only [binaryTyped, Bool.and_eq_true, decide_eq_true_eq] at hbinary
      obtain ⟨-, rfl⟩ := hbinary
      refine ⟨rfl, by simp [foldStrings, exprTyped], rfl, rfl, fun env => ?_⟩
      rw [foldStrings, decide_not]
      exact (evalBinary_notEqual (equal_strings hleft hright)).symm
  | _ => exact ⟨rfl, .refl htyped⟩

variable (structs callee) in
theorem foldBinary_same {type : TypeRef} {op : BinaryOp} {left right : IrExpr}
    (htyped : exprTyped program typeEnv (.binary type op left right) = true)
    (hdefined : binaryDefined op (literal? left) (literal? right) = true) :
    ∃ folded, foldBinary type op left right = some folded ∧ folded.isPlace = false ∧
      SameNode program structs callee typeEnv (.binary type op left right)
        (binaryConstant? op (literal? left) (literal? right)) folded := by
  cases left with
  | int leftType lhs =>
      cases right with
      | int rightType rhs => exact foldInts_same htyped hdefined
      | _ => exact ⟨_, rfl, rfl, .refl htyped⟩
  | bool leftType lhs =>
      cases right with
      | bool rightType rhs => exact ⟨_, rfl, foldBools_same htyped⟩
      | _ => exact ⟨_, rfl, rfl, .refl htyped⟩
  | string leftType lhs =>
      cases right with
      | string rightType rhs => exact ⟨_, rfl, foldStrings_same htyped⟩
      | _ => exact ⟨_, rfl, rfl, .refl htyped⟩
  | _ => exact ⟨_, rfl, rfl, .refl htyped⟩

end Nodes

/-! Folding a whole expression. -/

section Exprs

variable {program : IrProgram} {structs : StructTable} {callee : Callee ω} {typeEnv : TypeEnv}

/-- What the optimizer makes of an expression, seen as a value and as a place. -/
structure Folded (program : IrProgram) (structs : StructTable) (callee : Callee ω)
    (typeEnv : TypeEnv) (expression folded : IrExpr) : Prop extends
    SameNode program structs callee typeEnv expression (constant? expression) folded where
  isPlace_eq : folded.isPlace = selectsPlace expression
  place_eq : keepsPlace expression = true → ∀ env,
    (denote structs callee env folded).place = (denote structs callee env expression).place

theorem SameNode.folded {expression folded : IrExpr}
    (hsame : SameNode program structs callee typeEnv expression (constant? expression) folded)
    (hselects : selectsPlace expression = false) (hplace : expression.isPlace = false)
    (hfolded : folded.isPlace = false) :
    Folded program structs callee typeEnv expression folded where
  toSameNode := hsame
  isPlace_eq := by rw [hfolded, hselects]
  place_eq := fun _ env => by
    rw [place_of_rvalue hplace, place_of_rvalue hfolded, hsame.value_eq]

/-- An `if` that gives way to the branch its condition selects. -/
theorem Folded.of_branch {expression branch folded : IrExpr}
    (hbranch : Folded program structs callee typeEnv branch folded)
    (hplace : expression.isPlace = false) (htype : branch.type = expression.type)
    (hconstant : constant? expression = constant? branch)
    (hselects : selectsPlace expression = selectsPlace branch)
    (hkeeps : keepsPlace expression = !selectsPlace expression)
    (hvalue : ∀ env,
      (denote structs callee env folded).value = (denote structs callee env expression).value) :
    Folded program structs callee typeEnv expression folded where
  typed := hbranch.typed
  type_eq := hbranch.type_eq.trans htype
  literal_eq := by rw [hbranch.literal_eq, hconstant]
  value_eq := hvalue
  isPlace_eq := by rw [hbranch.isPlace_eq, hselects]
  place_eq := fun hkept env => by
    have hfolded : folded.isPlace = false := by
      rw [hbranch.isPlace_eq, ← hselects]
      simpa [hkeeps] using hkept
    rw [place_of_rvalue hplace, place_of_rvalue hfolded, hvalue]

theorem foldIf_folded {type : TypeRef} {condition thenExpr elseExpr test first second : IrExpr}
    (htyped : exprTyped program typeEnv (.ifExpr type condition thenExpr elseExpr) = true)
    (htest : Folded program structs callee typeEnv condition test)
    (hfirst : Folded program structs callee typeEnv thenExpr first)
    (hsecond : Folded program structs callee typeEnv elseExpr second) :
    Folded program structs callee typeEnv (.ifExpr type condition thenExpr elseExpr)
      (foldIf type test first second) := by
  simp only [exprTyped, Bool.and_eq_true, decide_eq_true_eq] at htyped
  obtain ⟨⟨⟨-, hcondition⟩, hthen⟩, helse⟩ := htyped
  have hvalue env : (denote structs callee env (.ifExpr type test first second)).value =
      (denote structs callee env (.ifExpr type condition thenExpr elseExpr)).value := by
    simp only [denote, Meaning.rvalue, htest.value_eq, hfirst.value_eq, hsecond.value_eq]
  have htypedIf : exprTyped program typeEnv (.ifExpr type test first second) = true := by
    simp [exprTyped, htest.typed, hfirst.typed, hsecond.typed, htest.type_eq, hcondition,
      hfirst.type_eq, hthen, hsecond.type_eq, helse]
  have hconstant := htest.literal_eq
  cases test with
  | bool testType value =>
      cases value with
      | true =>
          exact hfirst.of_branch rfl hthen (by simp [constant?, ← hconstant, literal?])
            (by simp [selectsPlace, ← hconstant, literal?]) rfl hvalue
      | false =>
          exact hsecond.of_branch rfl helse (by simp [constant?, ← hconstant, literal?])
            (by simp [selectsPlace, ← hconstant, literal?]) rfl hvalue
  | _ =>
      refine SameNode.folded ⟨htypedIf, rfl, ?_, hvalue⟩ ?_ rfl rfl
      · simp [foldIf, constant?, ← hconstant, literal?]
      · simp [selectsPlace, ← hconstant, literal?]

theorem Folded.isPlace_of_isPlace {expression folded : IrExpr}
    (hfolded : Folded program structs callee typeEnv expression folded)
    (hplace : expression.isPlace = true) : folded.isPlace = true := by
  rw [hfolded.isPlace_eq]
  cases expression with
  | «local» _ _ | field _ _ _ | index _ _ _ | deref _ _ => rfl
  | _ => simp [IrExpr.isPlace] at hplace

theorem Folded.isPlace_eq_of_keepsPlace {expression folded : IrExpr}
    (hfolded : Folded program structs callee typeEnv expression folded)
    (hkeeps : keepsPlace expression = true) : folded.isPlace = expression.isPlace := by
  rw [hfolded.isPlace_eq]
  cases expression with
  | ifExpr _ _ _ _ => simpa [keepsPlace, IrExpr.isPlace] using hkeeps
  | _ => rfl

/-- The same for the items of a call or an array literal. -/
structure FoldedItems (program : IrProgram) (structs : StructTable) (callee : Callee ω)
    (typeEnv : TypeEnv) (items folded : List IrExpr) : Prop where
  typed : itemsTyped program typeEnv folded = true
  types_eq : folded.map IrExpr.type = items.map IrExpr.type
  values_eq : ∀ env, denoteItems structs callee env folded = denoteItems structs callee env items

theorem FoldedItems.length_eq {items folded : List IrExpr}
    (hitems : FoldedItems program structs callee typeEnv items folded) :
    folded.length = items.length := by
  simpa using congrArg List.length hitems.types_eq

theorem FoldedItems.all_type_eq {items folded : List IrExpr} {type : TypeRef}
    (hitems : FoldedItems program structs callee typeEnv items folded) :
    (folded.all fun item => item.type = type) = items.all fun item => item.type = type := by
  have hall := congrArg (fun types => types.all fun found => decide (found = type)) hitems.types_eq
  simpa only [List.all_map, Function.comp_def] using hall

variable (structs callee)

mutual

theorem optimizeExpr_folded : (expression : IrExpr) →
    exprTyped program typeEnv expression = true → foldsSafely expression = true →
    ∃ folded, optimizeExpr expression = some folded ∧
      Folded program structs callee typeEnv expression folded
  | .int _ _, htyped, _ | .bool _ _, htyped, _ | .string _ _, htyped, _ | .null _, htyped, _
  | .err _, htyped, _ | .alloc _ _, htyped, _ | .zalloc _ _ _, htyped, _ =>
      ⟨_, rfl, SameNode.folded (.refl htyped) rfl rfl rfl⟩
  | .local _ _, htyped, _ => ⟨_, rfl, .refl htyped, rfl, fun _ _ => rfl⟩
  | .unary type op operand, htyped, hsafe => by
      have htypedOperand := htyped
      simp only [exprTyped, foldsSafely, Bool.and_eq_true] at htypedOperand hsafe
      obtain ⟨folded, hfold, hfolded⟩ :=
        optimizeExpr_folded operand htypedOperand.1 hsafe.1
      have htypedNode : exprTyped program typeEnv (.unary type op folded) = true := by
        simp [exprTyped, hfolded.typed, hfolded.type_eq, htypedOperand.2]
      have hdefined : unaryDefined op (literal? folded) = true := by
        rw [hfolded.literal_eq]
        exact hsafe.2
      obtain ⟨result, hresult, hplace, hsame⟩ := foldUnary_same structs callee htypedNode hdefined
      refine ⟨result, by simp [optimizeExpr, hfold, hresult], ?_⟩
      refine SameNode.folded ⟨hsame.typed, hsame.type_eq, ?_, fun env => ?_⟩ rfl rfl hplace
      · rw [hsame.literal_eq, hfolded.literal_eq, constant?]
      · rw [hsame.value_eq]
        simp only [denote, Meaning.rvalue, hfolded.value_eq]
  | .binary type op left right, htyped, hsafe => by
      simp only [exprTyped, foldsSafely, Bool.and_eq_true] at htyped hsafe
      obtain ⟨first, hfirst, hleft⟩ := optimizeExpr_folded left htyped.1.1 hsafe.1.1
      obtain ⟨second, hsecond, hright⟩ := optimizeExpr_folded right htyped.1.2 hsafe.1.2
      have htypedNode : exprTyped program typeEnv (.binary type op first second) = true := by
        simp [exprTyped, hleft.typed, hright.typed, hleft.type_eq, hright.type_eq, htyped.2]
      have hdefined : binaryDefined op (literal? first) (literal? second) = true := by
        rw [hleft.literal_eq, hright.literal_eq]
        exact hsafe.2
      obtain ⟨result, hresult, hplace, hsame⟩ := foldBinary_same structs callee htypedNode hdefined
      refine ⟨result, by simp [optimizeExpr, hfirst, hsecond, hresult], ?_⟩
      refine SameNode.folded ⟨hsame.typed, hsame.type_eq, ?_, fun env => ?_⟩ rfl rfl hplace
      · rw [hsame.literal_eq, hleft.literal_eq, hright.literal_eq, constant?]
      · rw [hsame.value_eq]
        cases op <;> simp only [denote, Meaning.rvalue, hleft.value_eq, hright.value_eq]
  | .ifExpr type condition thenExpr elseExpr, htyped, hsafe => by
      have hparts := htyped
      simp only [exprTyped, foldsSafely, Bool.and_eq_true] at hparts hsafe
      obtain ⟨test, htest, hcondition⟩ := optimizeExpr_folded condition hparts.1.1.1.1.1 hsafe.1.1
      obtain ⟨first, hfirst, hthen⟩ := optimizeExpr_folded thenExpr hparts.1.1.1.1.2 hsafe.1.2
      obtain ⟨second, hsecond, helse⟩ := optimizeExpr_folded elseExpr hparts.1.1.1.2 hsafe.2
      exact ⟨_, by simp [optimizeExpr, htest, hfirst, hsecond],
        foldIf_folded htyped hcondition hthen helse⟩
  | .call type target moduleName functionName arguments, htyped, hsafe => by
      simp only [exprTyped, foldsSafely, Bool.and_eq_true] at htyped hsafe
      obtain ⟨folded, hfold, hitems⟩ := optimizeItems_folded arguments htyped.1 hsafe
      refine ⟨_, by simp [optimizeExpr, hfold]; rfl, ?_⟩
      refine SameNode.folded ⟨?_, rfl, rfl, fun env => ?_⟩ rfl rfl rfl
      · simp [exprTyped, hitems.typed, hitems.types_eq, htyped.2]
      · simp only [denote, Meaning.rvalue, hitems.values_eq]
  | .arrayLiteral type items, htyped, hsafe => by
      simp only [exprTyped, foldsSafely, Bool.and_eq_true] at htyped hsafe
      obtain ⟨folded, hfold, hitems⟩ := optimizeItems_folded items htyped.1 hsafe
      refine ⟨_, by simp [optimizeExpr, hfold]; rfl, ?_⟩
      refine SameNode.folded ⟨?_, rfl, rfl, fun env => ?_⟩ rfl rfl rfl
      · cases type with
        | array inner size =>
            simp only [exprTyped, hitems.typed, hitems.length_eq, hitems.all_type_eq,
              Bool.true_and]
            exact htyped.2
        | _ => simp at htyped
      · simp only [denote, Meaning.rvalue, hitems.values_eq]
  | .sliceFromArray type base, htyped, hsafe => by
      simp only [exprTyped, foldsSafely, Bool.and_eq_true] at htyped hsafe
      obtain ⟨folded, hfold, hbase⟩ := optimizeExpr_folded base htyped.1 hsafe.1
      refine ⟨_, by simp [optimizeExpr, hfold]; rfl, ?_⟩
      refine SameNode.folded ⟨?_, rfl, rfl, fun env => ?_⟩ rfl rfl rfl
      · simp [exprTyped, hbase.typed, hbase.type_eq, htyped.2]
      · simp only [denote, Meaning.rvalue, hbase.place_eq hsafe.2, hbase.type_eq]
  | .index type base index, htyped, hsafe => by
      simp only [exprTyped, foldsSafely, Bool.and_eq_true] at htyped hsafe
      obtain ⟨folded, hfold, hbase⟩ := optimizeExpr_folded base htyped.1.1.1 hsafe.1
      obtain ⟨position, hposition, hindex⟩ := optimizeExpr_folded index htyped.1.1.2 hsafe.2
      refine ⟨.index type folded position, by simp [optimizeExpr, hfold, hposition], ?_⟩
      refine ⟨⟨?_, rfl, rfl, fun env => ?_⟩, rfl, fun hkeeps env => ?_⟩
      · simp [exprTyped, hbase.typed, hindex.typed, hbase.type_eq, hindex.type_eq, htyped.1.2,
          htyped.2]
      · cases hslice : base.type.isSlice <;>
          simp [denote, Meaning.lvalue, hbase.type_eq, hslice, hbase.value_eq, hindex.value_eq]
      · cases hslice : base.type.isSlice with
        | true => simp [denote, Meaning.lvalue, hbase.type_eq, hslice, hbase.value_eq,
            hindex.value_eq]
        | false =>
            have hkept : keepsPlace base = true := by simpa [keepsPlace, hslice] using hkeeps
            simp [denote, hbase.type_eq, hslice, hbase.place_eq hkept, hindex.value_eq]
  | .sliceView type base start stop, htyped, hsafe => by
      simp only [exprTyped, foldsSafely, Bool.and_eq_true] at htyped hsafe
      obtain ⟨folded, hfold, hbase⟩ := optimizeExpr_folded base htyped.1.1.1 hsafe.1.1.1
      obtain ⟨first, hfirst, hstart⟩ := optimizeBound_folded start htyped.1.1.2 hsafe.1.1.2
      obtain ⟨last, hlast, hstop⟩ := optimizeBound_folded stop htyped.1.2 hsafe.1.2
      refine ⟨.sliceView type folded first last, by simp [optimizeExpr, hfold, hfirst, hlast], ?_⟩
      refine SameNode.folded ⟨?_, rfl, rfl, fun env => ?_⟩ rfl rfl rfl
      · simp [exprTyped, hbase.typed, hstart.1, hstop.1, hbase.type_eq, htyped.2]
      · cases hsize : base.type.arraySize? with
        | none =>
            simp only [denote, Meaning.rvalue, hbase.type_eq, hsize, hbase.value_eq, hstart.2,
              hstop.2]
        | some size =>
            have hslice : base.type.isSlice = false := by
              cases htype : base.type <;> simp [htype, TypeRef.arraySize?, TypeRef.isSlice] at hsize ⊢
            have hkept : keepsPlace base = true := by simpa [hslice] using hsafe.2
            simp only [denote, Meaning.rvalue, hbase.type_eq, hsize, hbase.place_eq hkept,
              hstart.2, hstop.2]
  | .field type base fieldName, htyped, hsafe => by
      simp only [exprTyped, foldsSafely, Bool.and_eq_true] at htyped hsafe
      obtain ⟨folded, hfold, hbase⟩ := optimizeExpr_folded base htyped.1 hsafe
      refine ⟨.field type folded fieldName, by simp [optimizeExpr, hfold], ?_⟩
      refine ⟨⟨?_, rfl, rfl, fun env => ?_⟩, rfl, fun hkeeps env => ?_⟩
      · rw [exprTyped, hbase.typed, hbase.type_eq]
        exact htyped.2
      · cases hptr : base.type.isPtr <;>
          simp [denote, Meaning.lvalue, hbase.type_eq, hptr, hbase.value_eq]
      · cases hptr : base.type.isPtr with
        | true => simp [denote, Meaning.lvalue, hbase.type_eq, hptr, hbase.value_eq]
        | false =>
            have hkept : keepsPlace base = true := by simpa [keepsPlace, hptr] using hkeeps
            simp [denote, hbase.type_eq, hptr, hbase.place_eq hkept]
  | .structLiteral type moduleName typeName fields, htyped, hsafe => by
      simp only [exprTyped, foldsSafely, Bool.and_eq_true] at htyped hsafe
      obtain ⟨htype, hfields⟩ := htyped
      cases hdecl : program.structTable.find moduleName typeName with
      | none => simp [hdecl] at hfields
      | some decl =>
          rw [hdecl] at hfields
          obtain ⟨folded, hfold, htypedFields, hvalues⟩ :=
            optimizeFields_folded fields hfields hsafe
          refine ⟨.structLiteral type moduleName typeName folded, by simp [optimizeExpr, hfold], ?_⟩
          refine SameNode.folded ⟨?_, rfl, rfl, fun env => ?_⟩ rfl rfl rfl
          · rw [exprTyped, hdecl, htype]
            exact htypedFields
          · simp only [denote, Meaning.rvalue, hvalues]
  | .ok type value, htyped, hsafe => by
      simp only [exprTyped, foldsSafely, Bool.and_eq_true] at htyped hsafe
      obtain ⟨folded, hfold, hvalue⟩ := optimizeExpr_folded value htyped.1 hsafe
      refine ⟨.ok type folded, by simp [optimizeExpr, hfold], ?_⟩
      refine SameNode.folded ⟨?_, rfl, rfl, fun env => ?_⟩ rfl rfl rfl
      · simp [exprTyped, hvalue.typed, hvalue.type_eq, htyped.2]
      · simp only [denote, Meaning.rvalue, hvalue.value_eq]
  | .addr type target, htyped, hsafe => by
      simp only [exprTyped, foldsSafely, Bool.and_eq_true] at htyped hsafe
      obtain ⟨folded, hfold, htarget⟩ := optimizeExpr_folded target htyped.1.1 hsafe.1
      refine ⟨.addr type folded, by simp [optimizeExpr, hfold], ?_⟩
      have hplace := htarget.isPlace_of_isPlace htyped.1.2
      refine SameNode.folded ⟨?_, rfl, rfl, fun env => ?_⟩ rfl rfl rfl
      · simp [exprTyped, htarget.typed, htarget.type_eq, hplace, htyped.2]
      · simp only [denote, Meaning.rvalue, htarget.place_eq hsafe.2, hplace, htyped.1.2]
  | .deref type target, htyped, hsafe => by
      simp only [exprTyped, foldsSafely, Bool.and_eq_true] at htyped hsafe
      obtain ⟨folded, hfold, htarget⟩ := optimizeExpr_folded target htyped.1 hsafe
      refine ⟨.deref type folded, by simp [optimizeExpr, hfold], ?_⟩
      refine ⟨⟨?_, rfl, rfl, fun env => ?_⟩, rfl, fun hkeeps env => ?_⟩
      · simp [exprTyped, htarget.typed, htarget.type_eq, htyped.2]
      · simp only [denote, Meaning.lvalue, htarget.value_eq]
      · simp only [denote, Meaning.lvalue, htarget.value_eq]

theorem optimizeBound_folded : (bound : Option IrExpr) →
    boundTyped program typeEnv bound = true → boundFoldsSafely bound = true →
    ∃ folded, optimizeBound bound = some folded ∧
      boundTyped program typeEnv folded = true ∧
      ∀ env, denoteBound structs callee env folded = denoteBound structs callee env bound
  | none, _, _ => ⟨none, rfl, rfl, fun _ => rfl⟩
  | some bound, htyped, hsafe => by
      simp only [boundTyped, boundFoldsSafely, Bool.and_eq_true, decide_eq_true_eq]
        at htyped hsafe
      obtain ⟨folded, hfold, hbound⟩ := optimizeExpr_folded bound htyped.1 hsafe
      refine ⟨some folded, by simp [optimizeBound, hfold], ?_, fun env => ?_⟩
      · simp [boundTyped, hbound.typed, hbound.type_eq, htyped.2]
      · simp only [denoteBound, hbound.value_eq]

theorem optimizeItems_folded : (items : List IrExpr) →
    itemsTyped program typeEnv items = true → itemsFoldSafely items = true →
    ∃ folded, optimizeItems items = some folded ∧
      FoldedItems program structs callee typeEnv items folded
  | [], _, _ => ⟨[], rfl, rfl, rfl, fun _ => rfl⟩
  | item :: rest, htyped, hsafe => by
      simp only [itemsTyped, itemsFoldSafely, Bool.and_eq_true] at htyped hsafe
      obtain ⟨first, hfirst, hitem⟩ := optimizeExpr_folded item htyped.1 hsafe.1
      obtain ⟨remaining, hremaining, hrest⟩ := optimizeItems_folded rest htyped.2 hsafe.2
      refine ⟨first :: remaining, by simp [optimizeItems, hfirst, hremaining], ?_, ?_,
        fun env => ?_⟩
      · simp [itemsTyped, hitem.typed, hrest.typed]
      · simp [hitem.type_eq, hrest.types_eq]
      · simp only [denoteItems, hitem.value_eq, hrest.values_eq]

theorem optimizeFields_folded {decl : IrStruct} : (fields : List (Name × IrExpr)) →
    fieldsTyped program typeEnv decl fields = true → fieldsFoldSafely fields = true →
    ∃ folded, optimizeFields fields = some folded ∧
      fieldsTyped program typeEnv decl folded = true ∧
      ∀ env owner aggregate, denoteFields structs callee env owner aggregate folded =
        denoteFields structs callee env owner aggregate fields
  | [], _, _ => ⟨[], rfl, rfl, fun _ _ _ => rfl⟩
  | (fieldName, value) :: rest, htyped, hsafe => by
      simp only [fieldsTyped, fieldsFoldSafely, Bool.and_eq_true, decide_eq_true_eq]
        at htyped hsafe
      obtain ⟨first, hfirst, hvalue⟩ := optimizeExpr_folded value htyped.1.1 hsafe.1
      obtain ⟨remaining, hremaining, hrest⟩ := optimizeFields_folded rest htyped.2 hsafe.2
      refine ⟨(fieldName, first) :: remaining, by simp [optimizeFields, hfirst, hremaining], ?_,
        fun env owner aggregate => ?_⟩
      · simp [fieldsTyped, hvalue.typed, hvalue.type_eq, htyped.1.2, hrest.1]
      · simp only [denoteFields, hvalue.value_eq, hrest.2]

end

end Exprs

/-! Statements. -/

section Statements

variable {program : IrProgram} {structs : StructTable} {callee : Callee ω} {fuel : Nat}
  {returnType : TypeRef}

open Typing (stmtTyped stmtsTyped elseTyped)

theorem execStmts_return (env : Env) (value : Option IrExpr) (rest : List IrStmt) :
    execStmts structs callee fuel env (.returnStmt value :: rest) =
      execStmts structs callee fuel env [.returnStmt value] := by
  simp only [execStmts, execStmt, bind_assoc, pure_bind]

mutual

theorem optimizeStmt_folded {typeEnv : TypeEnv} : (statement : IrStmt) →
    stmtTyped program returnType typeEnv statement = true → stmtFoldsSafely statement = true →
    ∃ folded, optimizeStmt statement = some folded ∧
      ∀ env, execStmt structs callee fuel env folded = execStmt structs callee fuel env statement
  | .letStmt name isMutable type initializer, htyped, hsafe => by
      simp only [stmtTyped, stmtFoldsSafely, Bool.and_eq_true] at htyped hsafe
      obtain ⟨folded, hfold, hvalue⟩ := optimizeExpr_folded structs callee initializer htyped.1 hsafe
      exact ⟨.letStmt name isMutable type folded, by simp [optimizeStmt, hfold], fun env => by
        simp only [execStmt, hvalue.value_eq]⟩
  | .assign target value, htyped, hsafe => by
      simp only [stmtTyped, stmtFoldsSafely, Bool.and_eq_true] at htyped hsafe
      obtain ⟨first, hfirst, htarget⟩ :=
        optimizeExpr_folded structs callee target htyped.1.1.1 hsafe.1.1
      obtain ⟨second, hsecond, hvalue⟩ := optimizeExpr_folded structs callee value htyped.1.1.2 hsafe.2
      have hplace := htarget.isPlace_eq_of_keepsPlace hsafe.1.2
      exact ⟨.assign first second, by simp [optimizeStmt, hfirst, hsecond], fun env => by
        simp only [execStmt, hplace, htarget.place_eq hsafe.1.2, hvalue.value_eq]⟩
  | .returnStmt value, htyped, hsafe => by
      simp only [stmtFoldsSafely] at hsafe
      cases value with
      | none => exact ⟨.returnStmt none, rfl, fun _ => rfl⟩
      | some value =>
          simp only [stmtTyped, boundFoldsSafely, Bool.and_eq_true] at htyped hsafe
          obtain ⟨folded, hfold, hvalue⟩ := optimizeExpr_folded structs callee value htyped.1 hsafe
          exact ⟨.returnStmt (some folded), by simp [optimizeStmt, optimizeBound, hfold],
            fun env => by simp only [execStmt, returnValue, hvalue.value_eq]⟩
  | .expr value, htyped, hsafe => by
      simp only [stmtTyped, stmtFoldsSafely] at htyped hsafe
      obtain ⟨folded, hfold, hvalue⟩ := optimizeExpr_folded structs callee value htyped hsafe
      exact ⟨.expr folded, by simp [optimizeStmt, hfold], fun env => by
        simp only [execStmt, hvalue.value_eq]⟩
  | .free value, htyped, hsafe => by
      simp only [stmtTyped, stmtFoldsSafely, Bool.and_eq_true] at htyped hsafe
      obtain ⟨folded, hfold, hvalue⟩ := optimizeExpr_folded structs callee value htyped.1 hsafe
      exact ⟨.free folded, by simp [optimizeStmt, hfold], fun env => by
        simp only [execStmt, hvalue.value_eq]⟩
  | .zone zoneName body, htyped, hsafe => by
      simp only [stmtTyped, stmtFoldsSafely] at htyped hsafe
      obtain ⟨folded, hfold, hbody⟩ := optimizeBlock_folded body htyped hsafe
      exact ⟨.zone zoneName folded, by simp [optimizeStmt, hfold], fun env => by
        simp only [execStmt, hbody]⟩
  | .ifStmt condition thenBlock elseBlock, htyped, hsafe => by
      simp only [stmtTyped, stmtFoldsSafely, Bool.and_eq_true] at htyped hsafe
      obtain ⟨test, htest, hcondition⟩ := optimizeExpr_folded structs callee condition htyped.1.1.1 hsafe.1.1
      obtain ⟨first, hfirst, hthen⟩ := optimizeBlock_folded thenBlock htyped.1.2 hsafe.1.2
      obtain ⟨second, hsecond, helse⟩ := optimizeElse_folded elseBlock htyped.2 hsafe.2
      exact ⟨.ifStmt test first second, by simp [optimizeStmt, htest, hfirst, hsecond],
        fun env => by simp only [execStmt, hcondition.value_eq, hthen, helse]⟩
  | .whileStmt condition body, htyped, hsafe => by
      simp only [stmtTyped, stmtFoldsSafely, Bool.and_eq_true] at htyped hsafe
      obtain ⟨test, htest, hcondition⟩ := optimizeExpr_folded structs callee condition htyped.1.1 hsafe.1
      obtain ⟨folded, hfold, hbody⟩ := optimizeBlock_folded body htyped.2 hsafe.2
      exact ⟨.whileStmt test folded, by simp [optimizeStmt, htest, hfold], fun env => by
        simp only [execStmt, hcondition.value_eq, hbody]⟩
  | .loop body, htyped, hsafe => by
      simp only [stmtTyped, stmtFoldsSafely] at htyped hsafe
      obtain ⟨folded, hfold, hbody⟩ := optimizeBlock_folded body htyped hsafe
      exact ⟨.loop folded, by simp [optimizeStmt, hfold], fun env => by
        simp only [execStmt, hbody]⟩
  | .forStmt name type start stop body, htyped, hsafe => by
      simp only [stmtTyped, stmtFoldsSafely, Bool.and_eq_true] at htyped hsafe
      obtain ⟨first, hfirst, hstart⟩ := optimizeExpr_folded structs callee start htyped.1.1.1.1.2 hsafe.1.1
      obtain ⟨last, hlast, hstop⟩ := optimizeExpr_folded structs callee stop htyped.1.1.2 hsafe.1.2
      obtain ⟨folded, hfold, hbody⟩ := optimizeBlock_folded body htyped.2 hsafe.2
      exact ⟨.forStmt name type first last folded, by simp [optimizeStmt, hfirst, hlast, hfold],
        fun env => by simp only [execStmt, hstart.value_eq, hstop.value_eq, hbody]⟩

theorem optimizeElse_folded {typeEnv : TypeEnv} : (elseBlock : Option (List IrStmt)) →
    elseTyped program returnType typeEnv elseBlock = true → elseFoldsSafely elseBlock = true →
    ∃ folded, optimizeElse elseBlock = some folded ∧
      ∀ env, execElse structs callee fuel env folded = execElse structs callee fuel env elseBlock
  | none, _, _ => ⟨none, rfl, fun _ => rfl⟩
  | some block, htyped, hsafe => by
      simp only [elseTyped, elseFoldsSafely] at htyped hsafe
      obtain ⟨folded, hfold, hblock⟩ := optimizeBlock_folded block htyped hsafe
      exact ⟨some folded, by simp [optimizeElse, hfold], fun env => by
        simp only [execElse, hblock]⟩

theorem optimizeBlock_folded {typeEnv : TypeEnv} : (block : List IrStmt) →
    stmtsTyped program returnType typeEnv block = true → blockFoldsSafely block = true →
    ∃ folded, optimizeBlock block = some folded ∧
      ∀ env, execStmts structs callee fuel env folded = execStmts structs callee fuel env block
  | [], _, _ => ⟨[], rfl, fun _ => rfl⟩
  | statement :: rest, htyped, hsafe => by
      simp only [stmtsTyped, blockFoldsSafely, Bool.and_eq_true] at htyped hsafe
      obtain ⟨first, hfirst, hstatement⟩ := optimizeStmt_folded statement htyped.1 hsafe.1
      cases hreturn : isReturn statement with
      | true =>
          refine ⟨[first], by simp [optimizeBlock, hfirst, hreturn], fun env => ?_⟩
          cases statement with
          | returnStmt value =>
              rw [execStmts_return]
              simp only [execStmts, hstatement]
          | _ => simp [isReturn] at hreturn
      | false =>
          rw [hreturn, Bool.false_or] at hsafe
          obtain ⟨remaining, hremaining, hrest⟩ := optimizeBlock_folded rest htyped.2 hsafe.2
          exact ⟨first :: remaining, by simp [optimizeBlock, hfirst, hreturn, hremaining],
            fun env => by simp only [execStmts, hstatement, hrest]⟩

end

end Statements

end Optimize

end Cnegative
