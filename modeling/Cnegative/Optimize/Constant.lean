import Cnegative.Optimize.Fold
import Cnegative.Semantics.Expr

namespace Cnegative

namespace Optimize

/-! Which expressions are constants to the folder, and what a program must not do
with them for folding to be safe. -/

inductive Constant where
  | int (value : BitVec 64)
  | bool (value : Bool)
  | string (bytes : List UInt8)
  deriving DecidableEq, Repr

def literal? : IrExpr → Option Constant
  | .int _ value => some (.int value)
  | .bool _ value => some (.bool value)
  | .string _ bytes => some (.string bytes)
  | _ => none

def unaryConstant (op : UnaryOp) : Constant → Option Constant
  | .int value => if op = .negate then some (.int (-value)) else none
  | .bool value => if op = .not then some (.bool (!value)) else none
  | .string _ => none

def intsConstant (op : BinaryOp) (lhs rhs : BitVec 64) : Option Constant :=
  match op with
  | .add => some (.int (lhs + rhs))
  | .sub => some (.int (lhs - rhs))
  | .mul => some (.int (lhs * rhs))
  | .div => if rhs = 0 then none else some (.int (lhs.sdiv rhs))
  | .mod => if rhs = 0 then none else some (.int (lhs.srem rhs))
  | .equal => some (.bool (lhs = rhs))
  | .notEqual => some (.bool (lhs ≠ rhs))
  | .less => some (.bool (lhs.toInt < rhs.toInt))
  | .lessEqual => some (.bool (lhs.toInt ≤ rhs.toInt))
  | .greater => some (.bool (rhs.toInt < lhs.toInt))
  | .greaterEqual => some (.bool (rhs.toInt ≤ lhs.toInt))
  | .and | .or => none

def binaryConstant (op : BinaryOp) : Constant → Constant → Option Constant
  | .int lhs, .int rhs => intsConstant op lhs rhs
  | .bool lhs, .bool rhs =>
      match op with
      | .equal => some (.bool (lhs = rhs))
      | .notEqual => some (.bool (lhs ≠ rhs))
      | .and => some (.bool (lhs && rhs))
      | .or => some (.bool (lhs || rhs))
      | _ => none
  | .string lhs, .string rhs =>
      match op with
      | .equal => some (.bool (lhs = rhs))
      | .notEqual => some (.bool (lhs ≠ rhs))
      | _ => none
  | _, _ => none

def binaryConstant? (op : BinaryOp) : Option Constant → Option Constant → Option Constant
  | some lhs, some rhs => binaryConstant op lhs rhs
  | _, _ => none

def constant? : IrExpr → Option Constant
  | .int _ value => some (.int value)
  | .bool _ value => some (.bool value)
  | .string _ bytes => some (.string bytes)
  | .unary _ op operand => (constant? operand).bind (unaryConstant op)
  | .binary _ op left right => binaryConstant? op (constant? left) (constant? right)
  | .ifExpr _ condition thenExpr elseExpr =>
      match constant? condition with
      | some (.bool true) => constant? thenExpr
      | some (.bool false) => constant? elseExpr
      | _ => none
  | _ => none

/-- A place, or an `if` with a constant condition that selects one. -/
def selectsPlace : IrExpr → Bool
  | .ifExpr _ condition thenExpr elseExpr =>
      match constant? condition with
      | some (.bool true) => selectsPlace thenExpr
      | some (.bool false) => selectsPlace elseExpr
      | _ => false
  | expression => expression.isPlace

/-- Where the address of an operand is taken: a value that is copied into a
temporary is not folded to a place. -/
def keepsPlace : IrExpr → Bool
  | .field _ base _ => base.type.isPtr || keepsPlace base
  | .index _ base _ => base.type.isSlice || keepsPlace base
  | expression => expression.isPlace || !selectsPlace expression

/-- `-`, `+`, `*`, `/` and `%` as C computes them on these constants. -/
def unaryDefined (op : UnaryOp) : Option Constant → Bool
  | some (.int value) => op ≠ .negate || !value.negOverflow
  | _ => true

def binaryDefined (op : BinaryOp) : Option Constant → Option Constant → Bool
  | some (.int lhs), some (.int rhs) =>
      match op with
      | .add => !lhs.saddOverflow rhs
      | .sub => !lhs.ssubOverflow rhs
      | .mul => !lhs.smulOverflow rhs
      | .div | .mod => !divisionOverflows lhs rhs
      | _ => true
  | _, _ => true

mutual

/-- Every fold inside the expression is defined in C and turns no copy into a
place whose address is taken. -/
def foldsSafely : IrExpr → Bool
  | .unary _ op operand => foldsSafely operand && unaryDefined op (constant? operand)
  | .binary _ op left right =>
      foldsSafely left && foldsSafely right && binaryDefined op (constant? left) (constant? right)
  | .ifExpr _ condition thenExpr elseExpr =>
      foldsSafely condition && foldsSafely thenExpr && foldsSafely elseExpr
  | .call _ _ _ _ arguments => itemsFoldSafely arguments
  | .arrayLiteral _ items => itemsFoldSafely items
  | .sliceFromArray _ base => foldsSafely base && keepsPlace base
  | .index _ base index => foldsSafely base && foldsSafely index
  | .sliceView _ base start stop =>
      foldsSafely base && boundFoldsSafely start && boundFoldsSafely stop &&
        (base.type.isSlice || keepsPlace base)
  | .field _ base _ => foldsSafely base
  | .structLiteral _ _ _ fields => fieldsFoldSafely fields
  | .ok _ value => foldsSafely value
  | .addr _ target => foldsSafely target && keepsPlace target
  | .deref _ target => foldsSafely target
  | .int _ _ | .bool _ _ | .string _ _ | .null _ | .local _ _ | .err _ | .alloc _ _
  | .zalloc _ _ _ => true

def boundFoldsSafely : Option IrExpr → Bool
  | none => true
  | some bound => foldsSafely bound

def itemsFoldSafely : List IrExpr → Bool
  | [] => true
  | item :: rest => foldsSafely item && itemsFoldSafely rest

def fieldsFoldSafely : List (Name × IrExpr) → Bool
  | [] => true
  | (_, value) :: rest => foldsSafely value && fieldsFoldSafely rest

end

mutual

def stmtFoldsSafely : IrStmt → Bool
  | .letStmt _ _ _ initializer => foldsSafely initializer
  | .assign target value => foldsSafely target && keepsPlace target && foldsSafely value
  | .returnStmt value => boundFoldsSafely value
  | .expr value | .free value => foldsSafely value
  | .zone _ body | .loop body => blockFoldsSafely body
  | .ifStmt condition thenBlock elseBlock =>
      foldsSafely condition && blockFoldsSafely thenBlock && elseFoldsSafely elseBlock
  | .whileStmt condition body => foldsSafely condition && blockFoldsSafely body
  | .forStmt _ _ start stop body =>
      foldsSafely start && foldsSafely stop && blockFoldsSafely body

def elseFoldsSafely : Option (List IrStmt) → Bool
  | none => true
  | some block => blockFoldsSafely block

-- What stands behind a `return` is dropped unfolded.
def blockFoldsSafely : List IrStmt → Bool
  | [] => true
  | statement :: rest =>
      stmtFoldsSafely statement && (isReturn statement || blockFoldsSafely rest)

end

def programFoldsSafely (program : IrProgram) : Bool :=
  program.modules.all fun module =>
    module.consts.all (fun decl => foldsSafely decl.initializer) &&
    module.functions.all fun function => blockFoldsSafely function.body

end Optimize

end Cnegative
