import Cnegative.Semantics.Stmt

namespace Cnegative

open Library (Frame Chain)

namespace Typing

/-! Well-typed IR.  `typeEnv` gives every local in scope its type, and says
whether it may be assigned to. -/

structure LocalType where
  type : TypeRef
  isMutable : Bool
  deriving Repr

abbrev TypeEnv := Chain Name LocalType Unit

def TypeEnv.push (typeEnv : TypeEnv) : TypeEnv :=
  ⟨[], ()⟩ :: typeEnv

def TypeEnv.define (typeEnv : TypeEnv) (name : Name) (type : TypeRef) (isMutable : Bool) :
    TypeEnv :=
  Chain.define typeEnv name ⟨type, isMutable⟩

def TypeEnv.typeOf? (typeEnv : TypeEnv) (name : Name) : Option TypeRef :=
  (Chain.find? typeEnv name).map fun found => found.2.type

def zonePointer : TypeRef := .ptr .u8

def isIntOrU8 (type : TypeRef) : Bool :=
  type = .int || type = .u8

/-- A pointer may be compared with `null`, which has a type of its own. -/
def comparable (left right : TypeRef) : Bool :=
  left = right || (left.isPtr && right = .null) || (left = .null && right.isPtr)

def unaryTyped (type : TypeRef) (op : UnaryOp) (operand : TypeRef) : Bool :=
  match op with
  | .negate => operand = .int && type = .int
  | .not => operand = .bool && type = .bool

def binaryTyped (type : TypeRef) (op : BinaryOp) (left right : TypeRef) : Bool :=
  match op with
  | .add | .sub | .mul | .div | .mod => left = .int && right = .int && type = .int
  | .less | .lessEqual | .greater | .greaterEqual =>
      isIntOrU8 left && left = right && type = .bool
  | .equal | .notEqual => comparable left right && type = .bool
  | .and | .or => left = .bool && right = .bool && type = .bool

/-- The signature of a function of the program; the runtime's are not recorded. -/
def callTyped (program : IrProgram) (type : TypeRef) (target : CallTarget)
    (moduleName functionName : Name) (arguments : List TypeRef) : Bool :=
  match target with
  | .builtin => true
  | _ =>
      match program.findFunction moduleName functionName with
      | none => false
      | some function =>
          function.returnType = type && function.parameters.map (·.type) = arguments

section

variable (program : IrProgram) (typeEnv : TypeEnv)

mutual

def exprTyped : IrExpr → Bool
  | .int type value => type = .int || (type = .u8 && value.toNat < 256)
  | .bool type _ => type = .bool
  | .string type bytes => type = .str && !bytes.contains 0
  | .null type => type.isPtr || type = .null
  | .local type name => typeEnv.typeOf? name = some type
  | .unary type op operand => exprTyped operand && unaryTyped type op operand.type
  | .binary type op left right =>
      exprTyped left && exprTyped right && binaryTyped type op left.type right.type
  | .ifExpr type condition thenExpr elseExpr =>
      exprTyped condition && exprTyped thenExpr && exprTyped elseExpr &&
        condition.type = .bool && thenExpr.type = type && elseExpr.type = type
  | .call type target moduleName functionName arguments =>
      itemsTyped arguments &&
        callTyped program type target moduleName functionName (arguments.map IrExpr.type)
  | .arrayLiteral type items =>
      itemsTyped items &&
        match type with
        | .array inner size => items.length = size && items.all fun item => item.type = inner
        | _ => false
  | .sliceFromArray type base =>
      exprTyped base &&
        match base.type with
        | .array inner _ => type = .slice inner
        | _ => false
  | .index type base index =>
      exprTyped base && exprTyped index && index.type = .int &&
        match base.type with
        | .array inner _ | .slice inner => type = inner
        | _ => false
  | .sliceView type base start stop =>
      exprTyped base && boundTyped start && boundTyped stop &&
        match base.type with
        | .array inner _ | .slice inner => type = .slice inner
        | _ => false
  | .field type base fieldName =>
      exprTyped base &&
        match base.type with
        | .ptr inner => type = inner
        | _ => (resolveField program.structTable base.type fieldName).map Prod.fst = some type
  | .structLiteral type moduleName typeName fields =>
      type = .named moduleName typeName &&
        match program.structTable.find moduleName typeName with
        | none => false
        | some decl => fieldsTyped decl fields
  | .ok type value => exprTyped value && type = .result value.type
  | .err type => type.inner?.map TypeRef.result = some type
  | .alloc type allocType => type = .ptr allocType
  | .zalloc type allocType zoneName =>
      type = .ptr allocType && typeEnv.typeOf? zoneName = some zonePointer
  | .addr type target => exprTyped target && target.isPlace && type = .ptr target.type
  | .deref type target => exprTyped target && target.type = .ptr type

def boundTyped : Option IrExpr → Bool
  | none => true
  | some bound => exprTyped bound && bound.type = .int

def itemsTyped : List IrExpr → Bool
  | [] => true
  | item :: rest => exprTyped item && itemsTyped rest

def fieldsTyped (decl : IrStruct) : List (Name × IrExpr) → Bool
  | [] => true
  | (fieldName, value) :: rest =>
      exprTyped value &&
        (decl.fields.find? fun field => field.name == fieldName).map (·.type) =
          some value.type &&
        fieldsTyped decl rest

end

end

/-- An assignment to a plain local needs a mutable one. -/
def assignable (typeEnv : TypeEnv) : IrExpr → Bool
  | .local _ name =>
      match Chain.find? typeEnv name with
      | some found => found.2.isMutable
      | none => false
  | target => target.isPlace

def scopeAfter (typeEnv : TypeEnv) : IrStmt → TypeEnv
  | .letStmt name isMutable type _ => typeEnv.define name type isMutable
  | _ => typeEnv

section

variable (program : IrProgram) (returnType : TypeRef)

mutual

def stmtTyped (typeEnv : TypeEnv) : IrStmt → Bool
  | .letStmt _ _ type initializer =>
      exprTyped program typeEnv initializer && initializer.type = type
  | .assign target value =>
      exprTyped program typeEnv target && exprTyped program typeEnv value &&
        target.type = value.type && assignable typeEnv target
  | .returnStmt value =>
      match value with
      | none => returnType = .void
      | some value => exprTyped program typeEnv value && value.type = returnType
  | .expr value => exprTyped program typeEnv value
  | .zone zoneName body =>
      stmtsTyped ((typeEnv.push.define zoneName zonePointer false).push) body
  | .ifStmt condition thenBlock elseBlock =>
      exprTyped program typeEnv condition && condition.type = .bool &&
        stmtsTyped typeEnv.push thenBlock && elseTyped typeEnv elseBlock
  | .whileStmt condition body =>
      exprTyped program typeEnv condition && condition.type = .bool &&
        stmtsTyped typeEnv.push body
  | .loop body => stmtsTyped typeEnv.push body
  | .forStmt name type start stop body =>
      type = .int && exprTyped program typeEnv start && start.type = .int &&
        exprTyped program typeEnv stop && stop.type = .int &&
        stmtsTyped ((typeEnv.push.define name .int false).push) body
  | .free value =>
      exprTyped program typeEnv value && (value.type.isPtr || value.type = .str)

def elseTyped (typeEnv : TypeEnv) : Option (List IrStmt) → Bool
  | none => true
  | some block => stmtsTyped typeEnv.push block

def stmtsTyped (typeEnv : TypeEnv) : List IrStmt → Bool
  | [] => true
  | statement :: rest =>
      stmtTyped typeEnv statement && stmtsTyped (scopeAfter typeEnv statement) rest

end

end

def paramTypes (params : List Param) : TypeEnv :=
  params.foldl (fun typeEnv param => typeEnv.define param.name param.type false)
    (TypeEnv.push [])

def functionTyped (program : IrProgram) (function : IrFunction) : Bool :=
  stmtsTyped program function.returnType (paramTypes function.parameters) function.body

def programTyped (program : IrProgram) : Bool :=
  program.modules.all fun module =>
    module.consts.all (fun decl =>
      exprTyped program [] decl.initializer && decl.initializer.type = decl.type) &&
    module.functions.all (functionTyped program)

/-! The typing of a block by its first statement. -/

theorem stmtsTyped_cons (program : IrProgram) (returnType : TypeRef) (typeEnv : TypeEnv)
    (statement : IrStmt) (rest : List IrStmt) :
    stmtsTyped program returnType typeEnv (statement :: rest) =
      (stmtTyped program returnType typeEnv statement &&
        stmtsTyped program returnType (scopeAfter typeEnv statement) rest) := by
  simp only [stmtsTyped]

theorem stmtTyped_expr (program : IrProgram) (returnType : TypeRef) (typeEnv : TypeEnv)
    (value : IrExpr) :
    stmtTyped program returnType typeEnv (.expr value) = exprTyped program typeEnv value := by
  simp only [stmtTyped]

end Typing

end Cnegative
