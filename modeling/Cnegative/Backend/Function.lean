import Cnegative.Backend.Emit

namespace Cnegative

open Library (Line Code Chain Frame)

/-- `type->inner`, where it has one. -/
def TypeRef.element (type : TypeRef) : TypeRef := type.inner?.getD .unknown

namespace Llvm

structure Binding where
  type : TypeRef
  allocaId : Nat
  deriving DecidableEq, Repr

abbrev Scope := Chain Name Binding Unit

namespace Scope

def push (scope : Scope) : Scope := ⟨[], ()⟩ :: scope

def define (scope : Scope) (name : Name) (type : TypeRef) (allocaId : Nat) : Scope :=
  Chain.define scope name ⟨type, allocaId⟩

def lookup (scope : Scope) (name : Name) : Emit Binding :=
  Emit.ofOption ((Chain.find? scope name).map Prod.snd)

end Scope

/-- What the emitter looks up in the whole program: its structs and the string
literals `cn_llvm_collect_program_strings` found, in the order of their globals. -/
structure EmitContext where
  structs : StructTable
  strings : List (List UInt8)

/-- `cn_llvm_lower_expression` and `cn_llvm_materialize_address` of an expression. -/
structure Lowered where
  value : Emit LlvmValue
  address : Emit Address

namespace Lowered

def ofValue (type : TypeRef) (value : Emit LlvmValue) : Lowered where
  value := value
  address := do
    let stored ← value
    let id ← emitAlloca type
    emitStore stored (.reg id)
    return ⟨type, .reg id⟩

def ofAddress (address : Emit Address) : Lowered where
  value := do
    let source ← address
    emitLoad source.type source.pointer
  address := address

end Lowered

def lowerShortCircuit (type : TypeRef) (left right : Emit LlvmValue) (isAnd : Bool) :
    Emit LlvmValue := do
  let resultPtr ← emitAlloca type
  let rhsLabel ← Emit.nextLabel
  let falseOrTrueLabel ← Emit.nextLabel
  let mergeLabel ← Emit.nextLabel
  let leftValue ← left
  emitCondBr leftValue (if isAnd then rhsLabel else falseOrTrueLabel)
    (if isAnd then falseOrTrueLabel else rhsLabel)
  Emit.label rhsLabel
  let rightValue ← right
  emitStore rightValue (.reg resultPtr)
  emitBr mergeLabel
  Emit.label falseOrTrueLabel
  emitStore ⟨type, .bool (!isAnd)⟩ (.reg resultPtr)
  emitBr mergeLabel
  Emit.label mergeLabel
  emitLoad type (.reg resultPtr)

def lowerIfExpression (type : TypeRef) (condition thenExpr elseExpr : Emit LlvmValue) :
    Emit LlvmValue := do
  let resultPtr ← emitAlloca type
  let thenLabel ← Emit.nextLabel
  let elseLabel ← Emit.nextLabel
  let mergeLabel ← Emit.nextLabel
  let test ← condition
  emitCondBr test thenLabel elseLabel
  Emit.label thenLabel
  let thenValue ← thenExpr
  emitStore thenValue (.reg resultPtr)
  emitBr mergeLabel
  Emit.label elseLabel
  let elseValue ← elseExpr
  emitStore elseValue (.reg resultPtr)
  emitBr mergeLabel
  Emit.label mergeLabel
  emitLoad type (.reg resultPtr)

def Pointer.asData : Pointer → Data
  | .reg id => .reg id
  | .stray => .stray

def emitSlice (type : TypeRef) (dataPtr length : LlvmValue) : Emit LlvmValue := do
  let ptrReg ← emitInsertvalue type none dataPtr 0
  return .register type (← emitInsertvalue type (some ptrReg) length 1)

section

variable (context : EmitContext) (scope : Scope)

mutual

def lowerExpression : IrExpr → Lowered
  | .int type value => .ofValue type (pure ⟨type, .int value⟩)
  | .bool type value => .ofValue type (pure ⟨type, .bool value⟩)
  | .string type bytes => .ofValue type do
      let globalId ← Emit.ofOption (context.strings.findIdx? fun entry => entry == bytes)
      return .register .str (← Emit.result fun id => .stringGep id (bytes.length + 1) globalId)
  | .null type => .ofValue type (pure ⟨type, .null⟩)
  | .local _ name => .ofAddress do
      let binding ← scope.lookup name
      return ⟨binding.type, .reg binding.allocaId⟩
  | .unary type op operand => .ofValue type do emitUnary type op (← (lowerExpression operand).value)
  | .binary type op left right => .ofValue type <|
      match op with
      | .and => lowerShortCircuit left.type (lowerExpression left).value
          (lowerExpression right).value true
      | .or => lowerShortCircuit left.type (lowerExpression left).value
          (lowerExpression right).value false
      | op => do
          let leftValue ← (lowerExpression left).value
          let rightValue ← (lowerExpression right).value
          emitBinary context.structs type op leftValue rightValue
  | .ifExpr type condition thenExpr elseExpr => .ofValue type <|
      lowerIfExpression type (lowerExpression condition).value (lowerExpression thenExpr).value
        (lowerExpression elseExpr).value
  | .call type target moduleName functionName arguments => .ofValue type <|
      match target with
      | .builtin =>
          if 4 < arguments.length then Emit.fail
          else do
            emitBuiltinCall context.structs type moduleName functionName
              (← lowerArguments arguments)
      | _ =>
          if 32 < arguments.length then Emit.fail
          else do emitCall type (.function moduleName functionName) (← lowerArguments arguments)
  | .arrayLiteral type items => .ofValue type do
      match ← lowerItems type 0 none items with
      | some id => return .register type id
      | none => Emit.fail
  | .sliceFromArray type base => .ofValue type do
      let baseAddress ← (lowerExpression base).address
      let dataReg ← Emit.result fun id => .arrayGep id base.type baseAddress.pointer (constantInt 0)
      emitSlice type (.register (.ptr type.element) dataReg)
        (constantInt (BitVec.ofNat 64 (base.type.arraySize?.getD 0)))
  | .index type base index => .ofAddress do
      let indexValue ← (lowerExpression index).value
      if base.type.isSlice then
        let sliceValue ← (lowerExpression base).value
        let dataPtr ← emitExtractvalue sliceValue (.ptr base.type.element) 0
        return ⟨type, .reg (← Emit.result fun id => .pointerGep id type dataPtr indexValue)⟩
      else
        let baseAddress ← (lowerExpression base).address
        return ⟨type, .reg (← Emit.result fun id =>
          .arrayGep id base.type baseAddress.pointer indexValue)⟩
  | .sliceView type base start stop => .ofValue type do
      let startValue ← lowerBound (pure (constantInt 0)) start
      match base.type.arraySize? with
      | some size =>
          let baseAddress ← (lowerExpression base).address
          let dataReg ← Emit.result fun id =>
            .arrayGep id base.type baseAddress.pointer startValue
          let endValue ← lowerBound (pure (constantInt (BitVec.ofNat 64 size))) stop
          let length ← emitIntSub endValue startValue
          emitSlice type (.register (.ptr type.element) dataReg) length
      | none =>
          let baseSlice ← (lowerExpression base).value
          let basePtr ← emitExtractvalue baseSlice (.ptr type.element) 0
          let dataReg ← Emit.result fun id => .pointerGep id type.element basePtr startValue
          let endValue ← lowerBound (emitExtractvalue baseSlice .int 1) stop
          let length ← emitIntSub endValue startValue
          emitSlice type (.register (.ptr type.element) dataReg) length
  | .field _ base fieldName => .ofAddress do
      match base.type with
      | .ptr inner =>
          let baseValue ← (lowerExpression base).value
          return ⟨inner, baseValue.asPointer⟩
      | _ =>
          let baseAddress ← (lowerExpression base).address
          let field ← Emit.ofOption (resolveField context.structs base.type fieldName)
          return ⟨field.1, .reg (← Emit.result fun id =>
            .fieldGep id base.type baseAddress.pointer field.2)⟩
  | .structLiteral type moduleName typeName fields => .ofValue type do
      let decl ← Emit.ofOption (context.structs.find moduleName typeName)
      match ← lowerFields decl type none fields with
      | some id => return .register type id
      | none => Emit.fail
  | .ok type value => .ofValue type do
      let innerValue ← (lowerExpression value).value
      let okReg ← emitInsertvalue type none (constantBool true) 0
      return .register type (← emitInsertvalue type (some okReg) innerValue 1)
  | .err type => .ofValue type do
      return .register type (← emitInsertvalue type none (constantBool false) 0)
  | .alloc type allocType => .ofValue type do
      let size ← emitSizeof allocType
      return .register type (← Emit.result fun id =>
        .call (some id) type (.runtime "@malloc") [size])
  | .zalloc type allocType zoneName => .ofValue type do
      let size ← emitSizeof allocType
      let binding ← scope.lookup zoneName
      let zone ← emitLoad binding.type (.reg binding.allocaId)
      emitCall type (.runtime "@cn_zone_alloc") [zone, size]
  | .addr type target => .ofValue type <|
      if target.isPlace then do
        let address ← (lowerExpression target).address
        return ⟨type, address.pointer.asData⟩
      else Emit.fail
  | .deref type target => .ofAddress do
      let targetValue ← (lowerExpression target).value
      return ⟨type, targetValue.asPointer⟩

def lowerArguments : List IrExpr → Emit (List LlvmValue)
  | [] => pure []
  | argument :: rest => do
      let first ← (lowerExpression argument).value
      let remaining ← lowerArguments rest
      return first :: remaining

def lowerItems (type : TypeRef) (index : Nat) (aggregate : Option Nat) :
    List IrExpr → Emit (Option Nat)
  | [] => pure aggregate
  | item :: rest => do
      let value ← (lowerExpression item).value
      let id ← emitInsertvalue type aggregate value index
      lowerItems type (index + 1) (some id) rest

def lowerFields (decl : IrStruct) (type : TypeRef) (aggregate : Option Nat) :
    List (Name × IrExpr) → Emit (Option Nat)
  | [] => pure aggregate
  | (fieldName, field) :: rest => do
      let index ← Emit.ofOption (decl.fields.findIdx? fun entry => entry.name == fieldName)
      let value ← (lowerExpression field).value
      let id ← emitInsertvalue type aggregate value index
      lowerFields decl type (some id) rest

/-- A bound of a slice view, or what stands for it when it is left out. -/
def lowerBound (default : Emit LlvmValue) : Option IrExpr → Emit LlvmValue
  | none => default
  | some bound => (lowerExpression bound).value

end

/-- The step of a `for` loop, unless its body ended already. -/
def emitNextIteration (type : TypeRef) (iterPtr condLabel : Nat) : Emit Unit := do
  if ← Emit.isTerminated then return ()
  else
    let currentIter ← emitLoad type (.reg iterPtr)
    let nextReg ← Emit.result fun id => .arith id .add currentIter (constantInt 1)
    emitStore (.register type nextReg) (.reg iterPtr)
    emitBr condLabel

/-! Statements; `emitStatement` gives the scope for the statements behind it. -/

section

variable (context : EmitContext)

mutual

def emitStatement (scope : Scope) : IrStmt → Emit Scope
  | .letStmt name _ type initializer => do
      let value ← (lowerExpression context scope initializer).value
      let id ← emitAlloca type
      emitStore value (.reg id)
      return scope.define name type id
  | .assign target value => do
      if target.isPlace then
        let address ← (lowerExpression context scope target).address
        let stored ← (lowerExpression context scope value).value
        emitStore stored address.pointer
        return scope
      else Emit.fail
  | .returnStmt none => do
      Emit.terminate .retVoid
      return scope
  | .returnStmt (some value) => do
      emitRet (← (lowerExpression context scope value).value)
      return scope
  | .expr value => do
      let _ ← (lowerExpression context scope value).value
      return scope
  | .zone zoneName body => do
      let zonePtr ← emitAlloca (.ptr .u8)
      let zoneValue ← emitCall (.ptr .u8) (.runtime "@cn_zone_enter") []
      emitStore zoneValue (.reg zonePtr)
      emitBlock ((scope.push.define zoneName (.ptr .u8) zonePtr).push) body
      return scope
  | .ifStmt condition thenBlock elseBlock => do
      let thenLabel ← Emit.nextLabel
      let elseLabel ← Emit.nextLabel
      let mergeLabel ← Emit.nextLabel
      let test ← (lowerExpression context scope condition).value
      emitCondBr test thenLabel (if elseBlock.isNone then mergeLabel else elseLabel)
      Emit.label thenLabel
      emitBlock scope.push thenBlock
      emitBrIfOpen mergeLabel
      emitElse scope elseLabel mergeLabel elseBlock
      Emit.label mergeLabel
      return scope
  | .whileStmt condition body => do
      let condLabel ← Emit.nextLabel
      let bodyLabel ← Emit.nextLabel
      let endLabel ← Emit.nextLabel
      emitBr condLabel
      Emit.label condLabel
      let test ← (lowerExpression context scope condition).value
      emitCondBr test bodyLabel endLabel
      Emit.label bodyLabel
      emitBlock scope.push body
      emitBrIfOpen condLabel
      Emit.label endLabel
      return scope
  | .loop body => do
      let bodyLabel ← Emit.nextLabel
      let endLabel ← Emit.nextLabel
      emitBr bodyLabel
      Emit.label bodyLabel
      emitBlock scope.push body
      emitBrIfOpen bodyLabel
      Emit.label endLabel
      return scope
  | .forStmt name type start stop body => do
      let iterPtr ← emitAlloca type
      let endPtr ← emitAlloca type
      let condLabel ← Emit.nextLabel
      let bodyLabel ← Emit.nextLabel
      let endLabel ← Emit.nextLabel
      let startValue ← (lowerExpression context scope start).value
      let endValue ← (lowerExpression context scope stop).value
      emitStore startValue (.reg iterPtr)
      emitStore endValue (.reg endPtr)
      emitBr condLabel
      Emit.label condLabel
      let iterValue ← emitLoad type (.reg iterPtr)
      let boundValue ← emitLoad type (.reg endPtr)
      let cmpReg ← Emit.result fun id => .icmp id .slt iterValue boundValue
      emitCondBr (.register .bool cmpReg) bodyLabel endLabel
      Emit.label bodyLabel
      emitBlock ((scope.push.define name type iterPtr).push) body
      emitNextIteration type iterPtr condLabel
      Emit.label endLabel
      return scope
  | .free value => do
      let freed ← (lowerExpression context scope value).value
      let symbol := if freed.type = .str then "@cn_free_str" else "@free"
      Emit.write (.call none .void (.runtime symbol) [freed])
      return scope

/-- The `else` block of a statement that has one. -/
def emitElse (scope : Scope) (elseLabel mergeLabel : Nat) : Option (List IrStmt) → Emit Unit
  | none => pure ()
  | some block => do
      Emit.label elseLabel
      emitBlock scope.push block
      emitBrIfOpen mergeLabel

/-- `cn_llvm_emit_block` inside the scope it creates. -/
def emitBlock (scope : Scope) : List IrStmt → Emit Unit
  | [] => pure ()
  | statement :: rest => do
      beginUnreachableBlockIfNeeded
      let after ← emitStatement scope statement
      emitBlock after rest

end

/-- The parameters with the slots they are stored to. -/
def emitParameters (scope : Scope) (index : Nat) : List Param → Emit Scope
  | [] => pure scope
  | param :: rest => do
      let id ← emitAlloca param.type
      Emit.write (.storeArgument param.type index (.reg id))
      emitParameters (scope.define param.name param.type id) (index + 1) rest

def emitBody (function : IrFunction) : Emit Unit := do
  let scope ← emitParameters (Scope.push []) 0 function.parameters
  emitBlock context scope function.body
  if ← Emit.isTerminated then return ()
  else if function.returnType = .void then Emit.terminate .retVoid
  else Emit.terminate .unreachable

/-- `cn_llvm_emit_function`: the lines between `entry:` and the closing brace. -/
def emitFunction (function : IrFunction) : Option (Code Inst) :=
  (emitBody context function ⟨0, 0, false⟩).map fun printed => printed.2.1

end

end

end Llvm

end Cnegative
