import Cnegative.Syntax.Ast

namespace Cnegative

/-! The typed IR of `ir.h`.  `cn_ir_type` repeats `cn_type_ref` kind by kind and
`cn_ir_type_from_ast` copies it, so both passes share `TypeRef`; likewise
`cn_ir_unary_op` and `cn_ir_binary_op` repeat the source operators. -/

inductive CallTarget where
  | builtin
  | local
  | module
  deriving DecidableEq, Repr, Inhabited

/-- `cn_ir_expr`.  The first argument of every constructor is the node's `type`. -/
inductive IrExpr where
  | int (type : TypeRef) (value : BitVec 64)
  | bool (type : TypeRef) (value : Bool)
  | string (type : TypeRef) (value : List UInt8)
  | null (type : TypeRef)
  | local (type : TypeRef) (name : Name)
  | unary (type : TypeRef) (op : UnaryOp) (operand : IrExpr)
  | binary (type : TypeRef) (op : BinaryOp) (left right : IrExpr)
  | ifExpr (type : TypeRef) (condition thenExpr elseExpr : IrExpr)
  | call (type : TypeRef) (target : CallTarget) (moduleName functionName : Name)
      (arguments : List IrExpr)
  | arrayLiteral (type : TypeRef) (items : List IrExpr)
  | sliceFromArray (type : TypeRef) (base : IrExpr)
  | index (type : TypeRef) (base index : IrExpr)
  | sliceView (type : TypeRef) (base : IrExpr) (start stop : Option IrExpr)
  | field (type : TypeRef) (base : IrExpr) (fieldName : Name)
  | structLiteral (type : TypeRef) (moduleName typeName : Name) (fields : List (Name × IrExpr))
  | ok (type : TypeRef) (value : IrExpr)
  | err (type : TypeRef)
  | alloc (type : TypeRef) (allocType : TypeRef)
  | zalloc (type : TypeRef) (allocType : TypeRef) (zoneName : Name)
  | addr (type : TypeRef) (target : IrExpr)
  | deref (type : TypeRef) (target : IrExpr)
  deriving Repr, Inhabited

def IrExpr.type : IrExpr → TypeRef
  | .int type _ | .bool type _ | .string type _ | .null type | .local type _
  | .unary type _ _ | .binary type _ _ _ | .ifExpr type _ _ _ | .call type _ _ _ _
  | .arrayLiteral type _ | .sliceFromArray type _ | .index type _ _
  | .sliceView type _ _ _ | .field type _ _ | .structLiteral type _ _ _ | .ok type _
  | .err type | .alloc type _ | .zalloc type _ _ | .addr type _ | .deref type _ => type

inductive IrStmt where
  | letStmt (name : Name) (isMutable : Bool) (type : TypeRef) (initializer : IrExpr)
  | assign (target value : IrExpr)
  | returnStmt (value : Option IrExpr)
  | expr (value : IrExpr)
  | zone (zoneName : Name) (body : List IrStmt)
  | ifStmt (condition : IrExpr) (thenBlock : List IrStmt) (elseBlock : Option (List IrStmt))
  | whileStmt (condition : IrExpr) (body : List IrStmt)
  | loop (body : List IrStmt)
  | forStmt (name : Name) (type : TypeRef) (start stop : IrExpr) (body : List IrStmt)
  | free (value : IrExpr)
  deriving Repr, Inhabited

abbrev IrBlock := List IrStmt

structure IrConst where
  isPublic : Bool
  moduleName : Name
  name : Name
  type : TypeRef
  initializer : IrExpr
  deriving Repr

structure IrStruct where
  isPublic : Bool
  moduleName : Name
  name : Name
  fields : List StructField
  deriving DecidableEq, Repr

structure IrFunction where
  isPublic : Bool
  moduleName : Name
  name : Name
  returnType : TypeRef
  parameters : List Param
  body : IrBlock
  deriving Repr

structure IrModule where
  name : Name
  consts : List IrConst
  structs : List IrStruct
  functions : List IrFunction
  deriving Repr

structure IrProgram where
  modules : List IrModule
  deriving Repr

abbrev StructTable := List (Name × List IrStruct)

def IrProgram.structTable (program : IrProgram) : StructTable :=
  program.modules.map fun module => (module.name, module.structs)

/-- `cn_llvm_find_struct`. -/
def StructTable.find (structs : StructTable) (moduleName structName : Name) :
    Option IrStruct :=
  (structs.filter (fun entry => entry.1 == moduleName)).findSome?
    (fun entry => entry.2.find? (fun decl => decl.name == structName))

end Cnegative
