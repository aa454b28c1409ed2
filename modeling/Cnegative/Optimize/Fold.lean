import Cnegative.Syntax.Ir

namespace Cnegative

namespace Optimize

/-! The constant folder of `optimize.c`.  `none` stands for a fold that C leaves
undefined: signed overflow, and a division that overflows. -/

def checked (overflows : Bool) (type : TypeRef) (value : BitVec 64) : Option IrExpr :=
  if overflows then none else some (.int type value)

def divisionOverflows (lhs rhs : BitVec 64) : Bool :=
  lhs = BitVec.intMin 64 && rhs = -1

def foldUnary (type : TypeRef) (op : UnaryOp) (operand : IrExpr) : Option IrExpr :=
  match op, operand with
  | .negate, .int _ value => checked value.negOverflow type (-value)
  | .not, .bool _ value => some (.bool type (!value))
  | _, _ => some (.unary type op operand)

def foldInts (type : TypeRef) (op : BinaryOp) (left right : IrExpr) (lhs rhs : BitVec 64) :
    Option IrExpr :=
  match op with
  | .add => checked (lhs.saddOverflow rhs) type (lhs + rhs)
  | .sub => checked (lhs.ssubOverflow rhs) type (lhs - rhs)
  | .mul => checked (lhs.smulOverflow rhs) type (lhs * rhs)
  | .div =>
      if rhs = 0 then some (.binary type op left right)
      else checked (divisionOverflows lhs rhs) type (lhs.sdiv rhs)
  | .mod =>
      if rhs = 0 then some (.binary type op left right)
      else checked (divisionOverflows lhs rhs) type (lhs.srem rhs)
  | .equal => some (.bool type (lhs = rhs))
  | .notEqual => some (.bool type (lhs ≠ rhs))
  | .less => some (.bool type (lhs.toInt < rhs.toInt))
  | .lessEqual => some (.bool type (lhs.toInt ≤ rhs.toInt))
  | .greater => some (.bool type (rhs.toInt < lhs.toInt))
  | .greaterEqual => some (.bool type (rhs.toInt ≤ lhs.toInt))
  | .and | .or => some (.binary type op left right)

def foldBools (type : TypeRef) (op : BinaryOp) (left right : IrExpr) (lhs rhs : Bool) : IrExpr :=
  match op with
  | .equal => .bool type (lhs = rhs)
  | .notEqual => .bool type (lhs ≠ rhs)
  | .and => .bool type (lhs && rhs)
  | .or => .bool type (lhs || rhs)
  | _ => .binary type op left right

def foldStrings (type : TypeRef) (op : BinaryOp) (left right : IrExpr) (lhs rhs : List UInt8) :
    IrExpr :=
  match op with
  | .equal => .bool type (lhs = rhs)
  | .notEqual => .bool type (lhs ≠ rhs)
  | _ => .binary type op left right

def foldBinary (type : TypeRef) (op : BinaryOp) (left right : IrExpr) : Option IrExpr :=
  match left, right with
  | .int _ lhs, .int _ rhs => foldInts type op left right lhs rhs
  | .bool _ lhs, .bool _ rhs => some (foldBools type op left right lhs rhs)
  | .string _ lhs, .string _ rhs => some (foldStrings type op left right lhs rhs)
  | _, _ => some (.binary type op left right)

def foldIf (type : TypeRef) (condition thenExpr elseExpr : IrExpr) : IrExpr :=
  match condition with
  | .bool _ true => thenExpr
  | .bool _ false => elseExpr
  | _ => .ifExpr type condition thenExpr elseExpr

mutual

def optimizeExpr : IrExpr → Option IrExpr
  | .unary type op operand => do foldUnary type op (← optimizeExpr operand)
  | .binary type op left right => do
      foldBinary type op (← optimizeExpr left) (← optimizeExpr right)
  | .ifExpr type condition thenExpr elseExpr => do
      return foldIf type (← optimizeExpr condition) (← optimizeExpr thenExpr)
        (← optimizeExpr elseExpr)
  | .call type target moduleName functionName arguments => do
      return .call type target moduleName functionName (← optimizeItems arguments)
  | .arrayLiteral type items => do return .arrayLiteral type (← optimizeItems items)
  | .sliceFromArray type base => do return .sliceFromArray type (← optimizeExpr base)
  | .index type base index => do
      return .index type (← optimizeExpr base) (← optimizeExpr index)
  | .sliceView type base start stop => do
      return .sliceView type (← optimizeExpr base) (← optimizeBound start) (← optimizeBound stop)
  | .field type base fieldName => do return .field type (← optimizeExpr base) fieldName
  | .structLiteral type moduleName typeName fields => do
      return .structLiteral type moduleName typeName (← optimizeFields fields)
  | .ok type value => do return .ok type (← optimizeExpr value)
  | .addr type target => do return .addr type (← optimizeExpr target)
  | .deref type target => do return .deref type (← optimizeExpr target)
  | .int type value => some (.int type value)
  | .bool type value => some (.bool type value)
  | .string type bytes => some (.string type bytes)
  | .null type => some (.null type)
  | .local type name => some (.local type name)
  | .err type => some (.err type)
  | .alloc type allocType => some (.alloc type allocType)
  | .zalloc type allocType zoneName => some (.zalloc type allocType zoneName)

def optimizeBound : Option IrExpr → Option (Option IrExpr)
  | none => some none
  | some bound => do return some (← optimizeExpr bound)

def optimizeItems : List IrExpr → Option (List IrExpr)
  | [] => some []
  | item :: rest => do return (← optimizeExpr item) :: (← optimizeItems rest)

def optimizeFields : List (Name × IrExpr) → Option (List (Name × IrExpr))
  | [] => some []
  | (fieldName, value) :: rest => do
      return (fieldName, ← optimizeExpr value) :: (← optimizeFields rest)

end

def isReturn : IrStmt → Bool
  | .returnStmt _ => true
  | _ => false

mutual

def optimizeStmt : IrStmt → Option IrStmt
  | .letStmt name isMutable type initializer => do
      return .letStmt name isMutable type (← optimizeExpr initializer)
  | .assign target value => do return .assign (← optimizeExpr target) (← optimizeExpr value)
  | .returnStmt value => do return .returnStmt (← optimizeBound value)
  | .expr value => do return .expr (← optimizeExpr value)
  | .zone zoneName body => do return .zone zoneName (← optimizeBlock body)
  | .ifStmt condition thenBlock elseBlock => do
      return .ifStmt (← optimizeExpr condition) (← optimizeBlock thenBlock)
        (← optimizeElse elseBlock)
  | .whileStmt condition body => do
      return .whileStmt (← optimizeExpr condition) (← optimizeBlock body)
  | .loop body => do return .loop (← optimizeBlock body)
  | .forStmt name type start stop body => do
      return .forStmt name type (← optimizeExpr start) (← optimizeExpr stop)
        (← optimizeBlock body)
  | .free value => do return .free (← optimizeExpr value)

def optimizeElse : Option (List IrStmt) → Option (Option (List IrStmt))
  | none => some none
  | some block => do return some (← optimizeBlock block)

/-- `cn_ir_optimize_block`: what stands behind a `return` is dropped. -/
def optimizeBlock : List IrStmt → Option (List IrStmt)
  | [] => some []
  | statement :: rest => do
      let first ← optimizeStmt statement
      if isReturn statement then return [first]
      else return first :: (← optimizeBlock rest)

end

def optimizeConst (decl : IrConst) : Option IrConst := do
  return { decl with initializer := ← optimizeExpr decl.initializer }

def optimizeFunction (function : IrFunction) : Option IrFunction := do
  return { function with body := ← optimizeBlock function.body }

def optimizeModule (module : IrModule) : Option IrModule := do
  return { module with
    consts := ← module.consts.mapM optimizeConst
    functions := ← module.functions.mapM optimizeFunction }

def optimizeProgram (program : IrProgram) : Option IrProgram := do
  return ⟨← program.modules.mapM optimizeModule⟩

end Optimize

end Cnegative
