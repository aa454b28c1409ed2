import Cnegative.Backend.Builtins
import Cnegative.Backend.Llvm
import Cnegative.Library.Chain
import Cnegative.Semantics.Expr

namespace Cnegative

open Library (Line Code Chain Frame)

namespace Llvm

/-- The counters and the flag of `cn_llvm_function_ctx`. -/
structure EmitState where
  nextTemp : Nat
  nextLabel : Nat
  terminated : Bool
  deriving DecidableEq, Repr

/-- An emitter prints code; `none` is an error it reports. -/
def Emit (α : Type) := EmitState → Option (α × Code Inst × EmitState)

namespace Emit

instance : Monad Emit where
  pure a state := some (a, [], state)
  bind first next state := do
    let (a, before, middle) ← first state
    let (b, behind, after) ← next a middle
    return (b, before ++ behind, after)

def fail {α : Type} : Emit α := fun _ => none

def ofOption {α : Type} : Option α → Emit α
  | some a => pure a
  | none => fail

def nextTemp : Emit Nat := fun state =>
  some (state.nextTemp, [], { state with nextTemp := state.nextTemp + 1 })

def nextLabel : Emit Nat := fun state =>
  some (state.nextLabel, [], { state with nextLabel := state.nextLabel + 1 })

def isTerminated : Emit Bool := fun state => some (state.terminated, [], state)

def write (inst : Inst) : Emit Unit := fun state => some ((), [.inst inst], state)

/-- `cn_llvm_emit_terminated` behind the instruction. -/
def terminate (inst : Inst) : Emit Unit := fun state =>
  some ((), [.inst inst], { state with terminated := true })

def label (id : Nat) : Emit Unit := fun state =>
  some ((), [.label id], { state with terminated := false })

/-- An instruction whose result takes the next register. -/
def result (inst : Nat → Inst) : Emit Nat := do
  let id ← nextTemp
  write (inst id)
  return id

end Emit

def LlvmValue.register (type : TypeRef) (id : Nat) : LlvmValue := ⟨type, .reg id⟩

/-- `data.reg_id` of a value. -/
def LlvmValue.asPointer (value : LlvmValue) : Pointer :=
  match value.data with
  | .reg id => .reg id
  | _ => .stray

def constantInt (value : BitVec 64) : LlvmValue := ⟨.int, .int value⟩

def constantBool (value : Bool) : LlvmValue := ⟨.bool, .bool value⟩

def emitAlloca (type : TypeRef) : Emit Nat := Emit.result fun id => .alloca id type

def emitStore (value : LlvmValue) (pointer : Pointer) : Emit Unit :=
  Emit.write (.store value pointer)

def emitLoad (type : TypeRef) (pointer : Pointer) : Emit LlvmValue := do
  return .register type (← Emit.result fun id => .load id type pointer)

def emitBr (target : Nat) : Emit Unit := Emit.terminate (.br target)

def emitCondBr (condition : LlvmValue) (thenLabel elseLabel : Nat) : Emit Unit :=
  Emit.terminate (.condBr condition thenLabel elseLabel)

def emitRet (value : LlvmValue) : Emit Unit :=
  if value.data = .void then Emit.terminate .retVoid else Emit.terminate (.ret value)

/-- A branch, unless the block ended already. -/
def emitBrIfOpen (target : Nat) : Emit Unit := do
  if ← Emit.isTerminated then return () else emitBr target

def beginUnreachableBlockIfNeeded : Emit Unit := do
  if ← Emit.isTerminated then Emit.label (← Emit.nextLabel) else return ()

def emitExtractvalue (aggregate : LlvmValue) (type : TypeRef) (index : Nat) : Emit LlvmValue := do
  return .register type (← Emit.result fun id => .extractValue id aggregate index)

def emitInsertvalue (type : TypeRef) (aggregate : Option Nat) (element : LlvmValue)
    (index : Nat) : Emit Nat :=
  Emit.result fun id => .insertValue id type aggregate element index

def emitBoolAnd (left right : LlvmValue) : Emit LlvmValue := do
  return .register .bool (← Emit.result fun id => .boolAnd id left right)

def emitBoolNot (value : LlvmValue) : Emit LlvmValue := do
  match value.data with
  | .bool constant => return constantBool (!constant)
  | _ => return .register .bool (← Emit.result fun id => .boolNot id value)

def emitIntSub (left right : LlvmValue) : Emit LlvmValue := do
  match left.data, right.data with
  | .int first, .int second => return constantInt (first - second)
  | _, _ => return .register .int (← Emit.result fun id => .arith id .sub left right)

/-! `cn_llvm_emit_value_equality`. -/

/-- The conjunction of what the items emit, with no instruction for the first. -/
def emitAllEqual (items : List (Emit LlvmValue)) : Emit LlvmValue :=
  items.foldlM (fun result item => do
    let itemEq ← item
    match result.data with
    | .bool true => return itemEq
    | _ => emitBoolAnd result itemEq) (constantBool true)

/-- The member `index` of both values, compared by `equality`. -/
def emitMemberEquality (left right : LlvmValue) (type : TypeRef) (index : Nat)
    (equality : LlvmValue → LlvmValue → Emit LlvmValue) : Emit LlvmValue := do
  let first ← emitExtractvalue left type index
  let second ← emitExtractvalue right type index
  equality first second

def emitScalarEquality (left right : LlvmValue) : Emit LlvmValue := do
  return .register .bool (← Emit.result fun id => .icmp id .eq left right)

def emitStrEquality (left right : LlvmValue) : Emit LlvmValue := do
  let order ← Emit.result fun id => .strcmp id left right
  return .register .bool (← Emit.result fun id => .icmpZero id order)

def emitEqualityWith (onStruct : Name → Name → LlvmValue → LlvmValue → Emit LlvmValue) :
    TypeRef → LlvmValue → LlvmValue → Emit LlvmValue
  | .int, left, right | .u8, left, right | .bool, left, right | .ptr _, left, right
  | .null, left, right => emitScalarEquality left right
  | .str, left, right => emitStrEquality left right
  | .result inner, left, right => do
      let okEq ← emitMemberEquality left right .bool 0 emitScalarEquality
      let valueEq ← emitMemberEquality left right inner 1 (emitEqualityWith onStruct inner)
      emitBoolAnd okEq valueEq
  | .slice inner, left, right => do
      let ptrEq ← emitMemberEquality left right (.ptr inner) 0 emitScalarEquality
      let lenEq ← emitMemberEquality left right .int 1 emitScalarEquality
      emitBoolAnd ptrEq lenEq
  | .array inner size, left, right =>
      emitAllEqual ((List.range size).map fun index =>
        emitMemberEquality left right inner index (emitEqualityWith onStruct inner))
  | .named moduleName name, left, right => onStruct moduleName name left right
  | .void, _, _ | .unknown, _, _ => Emit.fail

/-- The struct case, through at most `depth` nested structs. -/
def emitStructEquality (structs : StructTable) :
    Nat → Name → Name → LlvmValue → LlvmValue → Emit LlvmValue
  | 0, _, _, _, _ => Emit.fail
  | depth + 1, moduleName, name, left, right => do
      let decl ← Emit.ofOption (structs.find moduleName name)
      emitAllEqual (decl.fields.zipIdx.map fun (field, index) =>
        emitMemberEquality left right field.type index
          (emitEqualityWith (emitStructEquality structs depth) field.type))

def emitValueEquality (structs : StructTable) (left right : LlvmValue) (type : TypeRef) :
    Emit LlvmValue :=
  emitEqualityWith (emitStructEquality structs (Value.structDepth structs)) type left right

def emitSizeof (type : TypeRef) : Emit LlvmValue := do
  let gep ← Emit.result fun id => .sizeGep id type
  return .register .int (← Emit.result fun id => .ptrToInt id gep)

/-- `cn_llvm_emit_named_call`, and the end of `cn_llvm_lower_call`. -/
def emitCall (type : TypeRef) (symbol : Symbol) (arguments : List LlvmValue) :
    Emit LlvmValue := do
  if type = .void then
    Emit.write (.call none type symbol arguments)
    return ⟨type, .void⟩
  else return .register type (← Emit.result fun id => .call (some id) type symbol arguments)

def emitPrintCall (type : TypeRef) (symbol : String) (argument : LlvmValue) : Emit LlvmValue := do
  Emit.write (.call none .void (.runtime symbol) [argument])
  return ⟨type, .void⟩

/-- `print` and `println` of a value of a display type. -/
def emitPrint (type : TypeRef) (isPrint : Bool) (argument : LlvmValue) : Emit LlvmValue :=
  match argument.type with
  | .int => emitPrintCall type (if isPrint then "@cn_write_int" else "@cn_print_int") argument
  | .u8 => do
      let widened ← Emit.result fun id => .zext id argument
      emitPrintCall type (if isPrint then "@cn_write_int" else "@cn_print_int")
        (.register .int widened)
  | .bool => emitPrintCall type (if isPrint then "@cn_write_bool" else "@cn_print_bool") argument
  | .str => emitPrintCall type (if isPrint then "@cn_write_str" else "@cn_print_str") argument
  | _ => Emit.fail

/-- `cn_llvm_lower_builtin_call` on lowered arguments. -/
def emitBuiltinCall (structs : StructTable) (type : TypeRef) (moduleName functionName : Name)
    (arguments : List LlvmValue) : Emit LlvmValue :=
  match findNamedCall moduleName functionName with
  | some entry =>
      if arguments.length < entry.argumentCount then Emit.fail
      else emitCall type (.runtime entry.symbol) (arguments.take entry.argumentCount)
  | none =>
      match moduleName, functionName, arguments with
      | "std.strings", "eq", first :: second :: _ => emitValueEquality structs first second .str
      | "", "print", argument :: _ => emitPrint type true argument
      | "", "println", argument :: _ => emitPrint type false argument
      | _, _, _ => Emit.fail

def arithOp : BinaryOp → Option ArithOp
  | .add => some .add
  | .sub => some .sub
  | .mul => some .mul
  | .div => some .sdiv
  | .mod => some .srem
  | _ => none

def comparePredicate (op : BinaryOp) (type : TypeRef) : Option Predicate :=
  match op with
  | .less => some (if type = .u8 then .ult else .slt)
  | .lessEqual => some (if type = .u8 then .ule else .sle)
  | .greater => some (if type = .u8 then .ugt else .sgt)
  | .greaterEqual => some (if type = .u8 then .uge else .sge)
  | _ => none

/-- A binary operator that has both operands evaluated. -/
def emitBinary (structs : StructTable) (type : TypeRef) (op : BinaryOp)
    (left right : LlvmValue) : Emit LlvmValue := do
  match op with
  | .equal => emitValueEquality structs left right left.type
  | .notEqual => emitBoolNot (← emitValueEquality structs left right left.type)
  | _ =>
      match arithOp op, comparePredicate op left.type with
      | some arith, _ => return .register type (← Emit.result fun id => .arith id arith left right)
      | _, some predicate =>
          return .register type (← Emit.result fun id => .icmp id predicate left right)
      | none, none => Emit.fail

def emitUnary (type : TypeRef) (op : UnaryOp) (operand : LlvmValue) : Emit LlvmValue := do
  match op with
  | .negate =>
      return .register type (← Emit.result fun id => .arith id .sub (constantInt 0) operand)
  | .not => return .register type (← Emit.result fun id => .boolNot id operand)

end Llvm

end Cnegative
