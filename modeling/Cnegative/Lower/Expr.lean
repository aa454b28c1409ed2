import Cnegative.Check.Expr
import Cnegative.Library.Chain
import Cnegative.Resolution.Lowering
import Cnegative.Syntax.Ir

namespace Cnegative

def Expr.isInt : Expr → Bool
  | .int _ => true
  | _ => false

def TypeRef.isU8 : TypeRef → Bool
  | .u8 => true
  | _ => false

namespace Lower

open Library (Ref Frame Chain)
open Checker (Resolved)
open Lowering (resolveConstInModule resolveSourceNamedConst resolveSourceNamedStruct
  resolveCanonicalNamedStruct resolveLocalFunction resolveModuleFunction)
open Check (canonType constType paramTypes returnTypeOf builtinNames builtinSignature)

/-! Lowering of expressions.  `none` is the outcome of every path that reports
E3020: `cn_ir_lower_project` then discards the program. -/

structure LocalBinding where
  type : TypeRef
  isMutable : Bool
  deriving Repr

/-- A `cn_ir_scope` with its parents; the frame's info is its `zone_name`, empty
outside a zone. -/
abbrev Scope := Chain Name LocalBinding Name

def Scope.push (parent : Scope) (zoneName : Name) : Scope :=
  ⟨[], zoneName⟩ :: parent

def Scope.currentZoneName : Scope → Name
  | [] => ""
  | frame :: outer => if frame.info = "" then Scope.currentZoneName outer else frame.info

def Scope.define (scope : Scope) (name : Name) (type : TypeRef) (isMutable : Bool) :
    Option Scope :=
  match scope with
  | [] => none
  | frame :: outer =>
      if (frame.find? name).isSome then none
      else some (frame.define name ⟨type, isMutable⟩ :: outer)

/-- The bindings of `scope` that `seen` does not hide, in lookup order. -/
def visibleBindings (seen : List Name) : List (Name × LocalBinding) → List (Name × LocalBinding)
  | [] => []
  | entry :: rest =>
      if seen.contains entry.1 then visibleBindings seen rest
      else entry :: visibleBindings (entry.1 :: seen) rest

def captureScope (scope : Scope) : Scope :=
  [⟨visibleBindings [] (scope.flatMap (·.bindings)), Scope.currentZoneName scope⟩]

structure Context where
  project : Project
  self : ModuleId

def Context.canon (ctx : Context) (type : TypeRef) : TypeRef :=
  canonType ctx.project ctx.self type

def wrapArrayAsSlice (expression : IrExpr) (expected : Option TypeRef) : IrExpr :=
  match expected, expression.type with
  | some (.slice element), .array item _ =>
      if element = item then .sliceFromArray (.slice element) expression else expression
  | _, _ => expression

/-- `expected` as far as it is an array's element type. -/
def elementHint : Option TypeRef → Option TypeRef
  | some (.array inner _) => some inner
  | _ => none

def resultHint : Option TypeRef → Option TypeRef
  | some (.result inner) => some inner
  | _ => none

def arrayLiteralResult (items : List IrExpr) (expected : Option TypeRef) : IrExpr :=
  match expected with
  | some (.array inner size) => .arrayLiteral (.array inner size) items
  | _ =>
      let element :=
        match items with
        | [] => .unknown
        | item :: _ => item.type
      wrapArrayAsSlice (.arrayLiteral (.array element items.length) items) expected

/-- The type `cn_ir_lower_field_access` gives the node. -/
def fieldType (ctx : Context) (base : TypeRef) (fieldName : Name) : Option TypeRef :=
  match base with
  | .ptr inner => some inner
  | .result inner => if fieldName = "ok" then some .bool else some inner
  | .slice _ => if fieldName = "length" then some .int else none
  | .named qualifier name => do
      let resolved ← resolveCanonicalNamedStruct ctx.project ctx.self qualifier name
      let field ← resolved.2.fields.find? (fun field => field.name == fieldName)
      return canonType ctx.project resolved.1 field.type
  | _ => none

def elementType : TypeRef → Option TypeRef
  | .array inner _ | .slice inner => some inner
  | _ => none

def binaryType : BinaryOp → TypeRef
  | .add | .sub | .mul | .div | .mod => .int
  | _ => .bool

/-- How `cn_ir_lower_call` resolved a callee: the target, the parameter types
used as hints and the return type. -/
structure CallPlan where
  target : CallTarget
  moduleName : Name
  functionName : Name
  hints : List TypeRef
  returnType : TypeRef

def planCall (ctx : Context) : Expr → Option CallPlan
  | .name callee =>
      if builtinNames.contains callee then
        some ⟨.builtin, "", callee, [], (builtinSignature callee).2.2⟩
      else do
        let resolved ← resolveLocalFunction ctx.project ctx.self callee
        return ⟨.local, Check.moduleName ctx.project resolved.1, resolved.2.name,
          paramTypes ctx.project resolved, returnTypeOf ctx.project resolved⟩
  | .field (.name moduleName) functionName => do
      let resolved ← resolveModuleFunction ctx.project ctx.self moduleName functionName
      let imported ← ctx.project.modules[resolved.1]?
      return ⟨if imported.isBuiltinStdlib then .builtin else .module, imported.name,
        resolved.2.name, paramTypes ctx.project resolved, returnTypeOf ctx.project resolved⟩
  | _ => none

def Context.sourceConst? (ctx : Context) (base : Expr) (fieldName : Name) :
    Option (Resolved ConstDecl) :=
  match base with
  | .name qualifier => resolveSourceNamedConst ctx.project ctx.self qualifier fieldName
  | _ => none

/-- What `cn_ir_lower_const_use` does with a constant and a hint. -/
abbrev ConstUse := Resolved ConstDecl → Option TypeRef → Option IrExpr

mutual

def lowerExpr (ctx : Context) (constUse : ConstUse) (scope : Scope)
    (expected : Option TypeRef) : Expr → Option IrExpr
  | .int value => some (.int (if expected = some .u8 then .u8 else .int) value)
  | .bool value => some (.bool .bool value)
  | .string value => some (.string .str value)
  | .null =>
      match expected with
      | some (.ptr inner) => some (.null (.ptr inner))
      | _ => some (.null .null)
  | .name name =>
      match scope.find? name with
      | some found => some (wrapArrayAsSlice (.local found.2.type name) expected)
      | none => do
          let resolved ← resolveConstInModule ctx.project ctx.self name
          constUse resolved expected
  | .unary op operand => do
      let lowered ← lowerExpr ctx constUse scope none operand
      let type :=
        match op with
        | .negate => TypeRef.int
        | .not => TypeRef.bool
      return wrapArrayAsSlice (.unary type op lowered) expected
  | .binary op left right =>
      if left.isInt && !right.isInt then do
        let second ← lowerExpr ctx constUse scope none right
        let first ← lowerExpr ctx constUse scope
          (if second.type.isU8 then some second.type else none) left
        return .binary (binaryType op) op first second
      else do
        let first ← lowerExpr ctx constUse scope none left
        let second ← lowerExpr ctx constUse scope
          (if right.isInt && first.type.isU8 then some first.type else none) right
        return .binary (binaryType op) op first second
  | .ifExpr condition thenExpr elseExpr => do
      let test ← lowerExpr ctx constUse scope (some .bool) condition
      let first ← lowerExpr ctx constUse scope expected thenExpr
      let second ← lowerExpr ctx constUse scope (some (expected.getD first.type)) elseExpr
      return wrapArrayAsSlice (.ifExpr (expected.getD first.type) test first second) expected
  | .call callee arguments => do
      let plan ← planCall ctx callee
      let lowered ← lowerArguments ctx constUse scope plan.hints arguments
      return wrapArrayAsSlice
        (.call plan.returnType plan.target plan.moduleName plan.functionName lowered) expected
  | .arrayLiteral items repeatCount =>
      match repeatCount with
      | none => do
          let lowered ← lowerItems ctx constUse scope (elementHint expected) items
          return arrayLiteralResult lowered expected
      | some 0 => some (arrayLiteralResult [] expected)
      | some (count + 1) => do
          let lowered ← lowerFirst ctx constUse scope (elementHint expected) items
          return arrayLiteralResult (List.replicate (count + 1) lowered) expected
  | .index base index => do
      let first ← lowerExpr ctx constUse scope none base
      let second ← lowerExpr ctx constUse scope none index
      let type ← elementType first.type
      return wrapArrayAsSlice (.index type first second) expected
  | .sliceView base start stop => do
      let first ← lowerExpr ctx constUse scope none base
      let from? ← lowerBound ctx constUse scope start
      let to? ← lowerBound ctx constUse scope stop
      let type ← elementType first.type
      let last :=
        match to?, first.type with
        | some bound, _ => some bound
        | none, .array _ size => some (.int .int (BitVec.ofNat 64 size))
        | none, _ => none
      return wrapArrayAsSlice
        (.sliceView (.slice type) first (some (from?.getD (.int .int 0))) last) expected
  | .field base fieldName =>
      match ctx.sourceConst? base fieldName with
      | some resolved => do
          let lowered ← constUse resolved none
          return wrapArrayAsSlice lowered expected
      | none => do
          let lowered ← lowerExpr ctx constUse scope none base
          let type ← fieldType ctx lowered.type fieldName
          return wrapArrayAsSlice (.field type lowered fieldName) expected
  | .structLiteral moduleName typeName fields => do
      let resolved ← resolveSourceNamedStruct ctx.project ctx.self moduleName typeName
      let owner := Check.moduleName ctx.project resolved.1
      let lowered ← lowerFieldInits ctx constUse scope resolved fields
      return .structLiteral (.named owner resolved.2.name) owner resolved.2.name lowered
  | .ok value => do
      let lowered ← lowerExpr ctx constUse scope (resultHint expected) value
      return .ok (.result ((resultHint expected).getD lowered.type)) lowered
  | .err =>
      match expected with
      | some (.result inner) => some (.err (.result inner))
      | _ => none
  | .alloc type => some (.alloc (.ptr (ctx.canon type)) (ctx.canon type))
  | .zalloc type =>
      if Scope.currentZoneName scope = "" then none
      else some (.zalloc (.ptr (ctx.canon type)) (ctx.canon type) (Scope.currentZoneName scope))
  | .addr target => do
      let lowered ← lowerExpr ctx constUse scope none target
      return .addr (.ptr lowered.type) lowered
  | .deref target => do
      let lowered ← lowerExpr ctx constUse scope none target
      match lowered.type with
      | .ptr inner => return .deref inner lowered
      | _ => none

def lowerBound (ctx : Context) (constUse : ConstUse) (scope : Scope) :
    Option Expr → Option (Option IrExpr)
  | none => some none
  | some bound => (lowerExpr ctx constUse scope (some .int) bound).map some

def lowerItems (ctx : Context) (constUse : ConstUse) (scope : Scope)
    (expected : Option TypeRef) : List Expr → Option (List IrExpr)
  | [] => some []
  | item :: rest => do
      let first ← lowerExpr ctx constUse scope expected item
      let remaining ← lowerItems ctx constUse scope expected rest
      return first :: remaining

/-- The item that a repeat literal lowers again and again. -/
def lowerFirst (ctx : Context) (constUse : ConstUse) (scope : Scope)
    (expected : Option TypeRef) : List Expr → Option IrExpr
  | [] => none
  | item :: _ => lowerExpr ctx constUse scope expected item

/-- `cn_ir_lower_call_arguments`; arguments beyond the parameters have no hint. -/
def lowerArguments (ctx : Context) (constUse : ConstUse) (scope : Scope) :
    List TypeRef → List Expr → Option (List IrExpr)
  | _, [] => some []
  | hints, argument :: rest => do
      let first ← lowerExpr ctx constUse scope hints.head? argument
      let remaining ← lowerArguments ctx constUse scope hints.tail rest
      return first :: remaining

def lowerFieldInits (ctx : Context) (constUse : ConstUse) (scope : Scope)
    (resolved : Resolved StructDecl) : List (Name × Expr) → Option (List (Name × IrExpr))
  | [] => some []
  | (fieldName, value) :: rest => do
      let field ← resolved.2.fields.find? (fun field => field.name == fieldName)
      let first ← lowerExpr ctx constUse scope
        (some (canonType ctx.project resolved.1 field.type)) value
      let remaining ← lowerFieldInits ctx constUse scope resolved rest
      return (fieldName, first) :: remaining

end

/-- `cn_ir_lower_const_use`; the source recurses through the constants without a
bound, which acyclic constants (E3026) keep within the fuel of `constFuel`. -/
def lowerConstUse (project : Project) : Nat → ConstUse
  | 0, _, _ => none
  | fuel + 1, resolved, expected =>
      lowerExpr ⟨project, resolved.1⟩ (lowerConstUse project fuel) [] expected
        resolved.2.initializer

end Lower

end Cnegative
