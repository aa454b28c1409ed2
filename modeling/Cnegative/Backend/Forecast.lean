import Cnegative.Backend.WellFormed
import Mathlib.Logic.Function.Basic

namespace Cnegative

open Library (Line Code Chain Frame)

namespace Llvm

/-! What is certain of an expression's value before anything is printed: its type
and the member of the union that counts, and whether the lines that will be
printed for it are lines LLVM reads. -/

inductive Kind where
  | int
  | constant
  | register
  | stray
  | void
  deriving DecidableEq, Repr

structure Shape where
  type : TypeRef
  kind : Kind
  deriving DecidableEq, Repr

/-- Fit to be stored, passed or computed with. -/
def Shape.isOperand (shape : Shape) : Bool :=
  shape.type ≠ .void && shape.kind ≠ .void && shape.kind ≠ .stray

structure Place where
  type : TypeRef
  isStray : Bool
  deriving DecidableEq, Repr

def Data.kind : Data → Kind
  | .int _ => .int
  | .bool _ | .null => .constant
  | .reg _ => .register
  | .stray => .stray
  | .void => .void

def LlvmValue.shape (value : LlvmValue) : Shape := ⟨value.type, value.data.kind⟩

def Address.place (address : Address) : Place := ⟨address.type, address.pointer = .stray⟩

/-- The lines for a value and for an address of an expression, with what they leave. -/
structure Forecast where
  value : Bool
  shape : Shape
  address : Bool
  place : Place
  deriving DecidableEq, Repr

namespace Forecast

def ofValue (type : TypeRef) (shape : Shape) (value : Bool) : Forecast :=
  ⟨value, shape, value && (type ≠ .void && shape.isOperand), ⟨type, false⟩⟩

def ofPlace (place : Place) (address : Bool) : Forecast :=
  ⟨address && (place.type ≠ .void && !place.isStray), ⟨place.type, .register⟩, address, place⟩

/-- Computed into the next register. -/
def computed (type : TypeRef) (value : Bool) : Forecast := .ofValue type ⟨type, .register⟩ value

def operand (forecast : Forecast) : Bool := forecast.value && forecast.shape.isOperand

def target (forecast : Forecast) : Bool := forecast.address && !forecast.place.isStray

end Forecast

/-! Equality: between values without a scalar nothing is compared. -/

/-- No line at all is printed for an equality at the type. -/
def comparesNothing (structs : StructTable) : TypeRef → Bool
  | .array _ size => size = 0
  | .named moduleName name =>
      match structs.find moduleName name with
      | some decl => decl.fields.isEmpty
      | none => false
  | _ => false

/-- The equality is the constant `true`. -/
def equalityIsTrue (onStruct : Name → Name → Bool) : TypeRef → Bool
  | .array inner size => size = 0 || equalityIsTrue onStruct inner
  | .named moduleName name => onStruct moduleName name
  | _ => false

def structEqualityIsTrue (structs : StructTable) : Nat → Name → Name → Bool
  | 0, _, _ => false
  | depth + 1, moduleName, name =>
      match structs.find moduleName name with
      | some decl =>
          decl.fields.all fun field =>
            equalityIsTrue (structEqualityIsTrue structs depth) field.type
      | none => false

def equalityShape (structs : StructTable) (type : TypeRef) : Shape where
  type := .bool
  kind :=
    if equalityIsTrue (structEqualityIsTrue structs (Value.structDepth structs)) type then .constant
    else .register

def equalityPrints (structs : StructTable) (type : TypeRef) (left right : Shape) : Bool :=
  comparesNothing structs type || (left.isOperand && right.isOperand)

/-! Calls. -/

def callShape (type : TypeRef) : Shape := ⟨type, if type = .void then .void else .register⟩

/-- How many of the arguments `cn_llvm_lower_builtin_call` passes on. -/
def builtinArgumentCount (moduleName functionName : Name) : Nat :=
  match findNamedCall moduleName functionName with
  | some entry => entry.argumentCount
  | none => if moduleName = "std.strings" then 2 else 1

def builtinShape (type : TypeRef) (moduleName functionName : Name) : Shape :=
  match findNamedCall moduleName functionName with
  | some _ => callShape type
  | none => if moduleName = "std.strings" then ⟨.bool, .register⟩ else ⟨type, .void⟩

def callForecast (type : TypeRef) (target : CallTarget) (moduleName functionName : Name)
    (arguments : List Forecast) : Forecast :=
  let shapes := arguments.map Forecast.shape
  match target with
  | .builtin =>
      .ofValue type (builtinShape type moduleName functionName)
        (arguments.all Forecast.value &&
          (shapes.take (builtinArgumentCount moduleName functionName)).all Shape.isOperand)
  | _ => .ofValue type (callShape type) (arguments.all Forecast.value && shapes.all Shape.isOperand)

def binaryForecast (structs : StructTable) (type : TypeRef) (op : BinaryOp)
    (leftType : TypeRef) (left right : Forecast) : Forecast :=
  let bothValues (printed : Bool) := left.value && (right.value && printed)
  match op with
  | .and | .or =>
      .ofValue type ⟨leftType, .register⟩ (leftType ≠ .void && (left.operand && right.operand))
  | .equal | .notEqual =>
      .ofValue type (equalityShape structs left.shape.type)
        (bothValues (equalityPrints structs left.shape.type left.shape right.shape))
  | _ => .computed type (bothValues (left.shape.isOperand && right.shape.isOperand))

/-- The parts of a literal, each one inserted behind the others. -/
def partsPrint (type : TypeRef) (parts : List Forecast) : Bool :=
  parts.all fun part => part.value && (type ≠ .void && part.shape.isOperand)

def lengthPrints (start stop : Shape) : Bool :=
  decide (stop.kind = .int ∧ start.kind = .int) || (stop.isOperand && start.isOperand)

section

variable (structs : StructTable) (types : Name → TypeRef)

mutual

/-- `types` gives the types of the bindings in scope. -/
def forecast : IrExpr → Forecast
  | .int type _ => .ofValue type ⟨type, .int⟩ true
  | .bool type _ | .null type => .ofValue type ⟨type, .constant⟩ true
  | .string type _ => .ofValue type ⟨.str, .register⟩ true
  | .local _ name => .ofPlace ⟨types name, false⟩ true
  | .unary type _ operand => .computed type (forecast operand).operand
  | .binary type op left right =>
      binaryForecast structs type op left.type (forecast left) (forecast right)
  | .ifExpr type condition thenExpr elseExpr =>
      .computed type (type ≠ .void && ((forecast condition).operand &&
        ((forecast thenExpr).operand && (forecast elseExpr).operand)))
  | .call type target moduleName functionName arguments =>
      callForecast type target moduleName functionName (forecastAll arguments)
  | .arrayLiteral type items => .computed type (partsPrint type (forecastAll items))
  | .sliceFromArray type base =>
      .computed type ((forecast base).target && (base.type ≠ .void && type ≠ .void))
  | .index type base index =>
      .ofPlace ⟨type, false⟩ ((forecast index).value &&
        (if base.type.isSlice then
          (forecast base).operand && (type ≠ .void && (forecast index).shape.isOperand)
        else (forecast base).target && (base.type ≠ .void && (forecast index).shape.isOperand)))
  | .sliceView type base start stop =>
      let first := forecastBound .int start
      let last := forecastBound (if base.type.arraySize?.isSome then .int else .register) stop
      .computed type (first.value &&
        ((if base.type.arraySize?.isSome then (forecast base).target && base.type ≠ .void
          else (forecast base).operand && type.element ≠ .void) &&
          (first.shape.isOperand && (last.value &&
            (lengthPrints first.shape last.shape && type ≠ .void)))))
  | .field _ base fieldName =>
      match base.type with
      | .ptr inner =>
          .ofPlace ⟨inner, (forecast base).shape.kind ≠ .register⟩ (forecast base).value
      | _ =>
          .ofPlace ⟨((resolveField structs base.type fieldName).map Prod.fst).getD .unknown, false⟩
            ((forecast base).target && base.type ≠ .void)
  | .structLiteral type _ _ fields => .computed type (partsPrint type (forecastFields fields))
  | .ok type value =>
      .computed type ((forecast value).value &&
        (type ≠ .void && (forecast value).shape.isOperand))
  | .err type => .computed type (type ≠ .void)
  | .alloc type allocType => .computed type (allocType ≠ .void)
  | .zalloc type allocType zoneName =>
      .ofValue type (callShape type) (allocType ≠ .void && types zoneName ≠ .void)
  | .addr type target =>
      .ofValue type ⟨type, if (forecast target).place.isStray then .stray else .register⟩
        (forecast target).address
  | .deref type target =>
      .ofPlace ⟨type, (forecast target).shape.kind ≠ .register⟩ (forecast target).value

def forecastAll : List IrExpr → List Forecast
  | [] => []
  | first :: rest => forecast first :: forecastAll rest

def forecastFields : List (Name × IrExpr) → List Forecast
  | [] => []
  | (_, field) :: rest => forecast field :: forecastFields rest

def forecastBound (kind : Kind) : Option IrExpr → Forecast
  | none => .ofValue .int ⟨.int, kind⟩ true
  | some bound => forecast bound

end

end

/-! Statements, with the types of the bindings in front of them. -/

section

variable (structs : StructTable)

def typesBehind (types : Name → TypeRef) : IrStmt → Name → TypeRef
  | .letStmt name _ type _ => Function.update types name type
  | _ => types

mutual

def statementPrints (types : Name → TypeRef) : IrStmt → Bool
  | .letStmt _ _ type initializer =>
      (forecast structs types initializer).value &&
        (type ≠ .void && (forecast structs types initializer).shape.isOperand)
  | .assign target value =>
      (forecast structs types target).address && ((forecast structs types value).value &&
        ((forecast structs types value).shape.isOperand &&
          !(forecast structs types target).place.isStray))
  | .returnStmt none => true
  | .returnStmt (some value) =>
      (forecast structs types value).value &&
        ((forecast structs types value).shape.kind = .void ||
          (forecast structs types value).shape.isOperand)
  | .expr value => (forecast structs types value).value
  | .zone zoneName body => blockPrints (Function.update types zoneName (.ptr .u8)) body
  | .ifStmt condition thenBlock elseBlock =>
      (forecast structs types condition).operand &&
        (blockPrints types thenBlock && elsePrints types elseBlock)
  | .whileStmt condition body =>
      (forecast structs types condition).operand && blockPrints types body
  | .loop body => blockPrints types body
  | .forStmt name type start stop body =>
      type ≠ .void && ((forecast structs types start).value &&
        ((forecast structs types stop).value &&
          ((forecast structs types start).shape.isOperand &&
            ((forecast structs types stop).shape.isOperand &&
              blockPrints (Function.update types name type) body))))
  | .free value => (forecast structs types value).operand

def elsePrints (types : Name → TypeRef) : Option (List IrStmt) → Bool
  | none => true
  | some block => blockPrints types block

def blockPrints (types : Name → TypeRef) : List IrStmt → Bool
  | [] => true
  | statement :: rest =>
      statementPrints types statement && blockPrints (typesBehind types statement) rest

end

def parametersPrint (params : List Param) : Bool :=
  params.all fun param => param.type ≠ .void

def parameterTypes (types : Name → TypeRef) (params : List Param) : Name → TypeRef :=
  params.foldl (fun known param => Function.update known param.name param.type) types

/-- Every place the function uses is reached through a register, and it computes
with values, never with `void`. -/
def functionPrints (function : IrFunction) : Bool :=
  parametersPrint function.parameters &&
    blockPrints structs (parameterTypes (fun _ => .unknown) function.parameters) function.body

end

end Llvm

end Cnegative
