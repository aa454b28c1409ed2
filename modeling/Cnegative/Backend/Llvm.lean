import Cnegative.Library.Blocks
import Cnegative.Syntax.Ir

namespace Cnegative

open Library (Line Code Instruction)

namespace Llvm

/-! The text `llvm_text.c` prints for a function body, one constructor for each
kind of line.  Types stand as IR types, which `cn_llvm_emit_type` prints. -/

/-- `cn_llvm_value.data` with the flags that say which member counts.  `stray` is
a register number read from a value that is not in a register. -/
inductive Data where
  | int (value : BitVec 64)
  | bool (value : Bool)
  | null
  | reg (id : Nat)
  | stray
  | void
  deriving DecidableEq, Repr

/-- `cn_llvm_value`. -/
structure LlvmValue where
  type : TypeRef
  data : Data
  deriving DecidableEq, Repr

/-- `pointer_reg_id`. -/
inductive Pointer where
  | reg (id : Nat)
  | stray
  deriving DecidableEq, Repr

/-- `cn_llvm_address`. -/
structure Address where
  type : TypeRef
  pointer : Pointer
  deriving DecidableEq, Repr

inductive ArithOp where
  | add
  | sub
  | mul
  | sdiv
  | srem
  deriving DecidableEq, Repr

inductive Predicate where
  | eq
  | slt
  | sle
  | sgt
  | sge
  | ult
  | ule
  | ugt
  | uge
  deriving DecidableEq, Repr

/-- What a call names, before `cn_llvm_emit_identifier_part`. -/
inductive Symbol where
  | function (moduleName functionName : Name)
  | runtime (name : String)
  deriving DecidableEq, Repr

inductive Inst where
  | alloca (result : Nat) (type : TypeRef)
  | storeArgument (type : TypeRef) (index : Nat) (pointer : Pointer)
  | store (value : LlvmValue) (pointer : Pointer)
  | load (result : Nat) (type : TypeRef) (pointer : Pointer)
  | fieldGep (result : Nat) (base : TypeRef) (pointer : Pointer) (field : Nat)
  | arrayGep (result : Nat) (base : TypeRef) (pointer : Pointer) (index : LlvmValue)
  | pointerGep (result : Nat) (element : TypeRef) (pointer index : LlvmValue)
  | stringGep (result : Nat) (length globalId : Nat)
  | sizeGep (result : Nat) (type : TypeRef)
  | ptrToInt (result source : Nat)
  | insertValue (result : Nat) (type : TypeRef) (aggregate : Option Nat) (element : LlvmValue)
      (index : Nat)
  | extractValue (result : Nat) (aggregate : LlvmValue) (index : Nat)
  | arith (result : Nat) (op : ArithOp) (left right : LlvmValue)
  | boolAnd (result : Nat) (left right : LlvmValue)
  | boolNot (result : Nat) (value : LlvmValue)
  | icmp (result : Nat) (predicate : Predicate) (left right : LlvmValue)
  | strcmp (result : Nat) (left right : LlvmValue)
  | icmpZero (result source : Nat)
  | zext (result : Nat) (value : LlvmValue)
  | call (result : Option Nat) (type : TypeRef) (symbol : Symbol) (arguments : List LlvmValue)
  | br (target : Nat)
  | condBr (condition : LlvmValue) (thenLabel elseLabel : Nat)
  | ret (value : LlvmValue)
  | retVoid
  | unreachable
  deriving DecidableEq, Repr

def LlvmValue.registers (value : LlvmValue) : List Nat :=
  match value.data with
  | .reg id => [id]
  | _ => []

def Pointer.registers : Pointer → List Nat
  | .reg id => [id]
  | .stray => []

namespace Inst

def operands : Inst → List LlvmValue
  | .store value _ | .arrayGep _ _ _ value | .insertValue _ _ _ value _ | .extractValue _ value _
  | .boolNot _ value | .zext _ value | .condBr value _ _ | .ret value => [value]
  | .pointerGep _ _ left right | .arith _ _ left right | .boolAnd _ left right
  | .icmp _ _ left right | .strcmp _ left right => [left, right]
  | .call _ _ _ arguments => arguments
  | _ => []

def pointers : Inst → List Pointer
  | .storeArgument _ _ pointer | .store _ pointer | .load _ _ pointer | .fieldGep _ _ pointer _
  | .arrayGep _ _ pointer _ => [pointer]
  | _ => []

/-- The types it is about besides those of its operands. -/
def types : Inst → List TypeRef
  | .alloca _ type | .storeArgument type _ _ | .load _ type _ | .fieldGep _ type _ _
  | .arrayGep _ type _ _ | .pointerGep _ type _ _ | .sizeGep _ type
  | .insertValue _ type _ _ _ => [type]
  | _ => []

theorem types_br (target : Nat) : (Inst.br target).types = [] := by simp only [types]

/-- Registers it reads that no operand names. -/
def sources : Inst → List Nat
  | .ptrToInt _ source | .icmpZero _ source => [source]
  | .insertValue _ _ aggregate _ _ => aggregate.toList
  | _ => []

def result? : Inst → Option Nat
  | .alloca result _ | .load result _ _ | .fieldGep result _ _ _ | .arrayGep result _ _ _
  | .pointerGep result _ _ _ | .stringGep result _ _ | .sizeGep result _ | .ptrToInt result _
  | .insertValue result _ _ _ _ | .extractValue result _ _ | .arith result _ _ _
  | .boolAnd result _ _ | .boolNot result _ | .icmp result _ _ _ | .strcmp result _ _
  | .icmpZero result _ | .zext result _ => some result
  | .call result _ _ _ => result
  | _ => none

def isTerminator : Inst → Bool
  | .br _ | .condBr _ _ _ | .ret _ | .retVoid | .unreachable => true
  | _ => false

def targets : Inst → List Nat
  | .br target => [target]
  | .condBr _ thenLabel elseLabel => [thenLabel, elseLabel]
  | _ => []

attribute [simp] operands pointers sources

end Inst

instance : Instruction Inst where
  uses inst :=
    inst.operands.flatMap LlvmValue.registers ++ inst.pointers.flatMap Pointer.registers ++
      inst.sources
  defs inst := inst.result?.toList
  targets := Inst.targets
  isTerminator := Inst.isTerminator

/-! What the text of one instruction must not do. -/

/-- Not `void`, by its type and by what it is. -/
def LlvmValue.isOperand (value : LlvmValue) : Bool :=
  value.type ≠ .void && value.data ≠ .void

def Inst.noVoidOperand (inst : Inst) : Bool :=
  inst.operands.all LlvmValue.isOperand && inst.types.all fun type => type ≠ .void

def Inst.noStrayRegister (inst : Inst) : Bool :=
  inst.operands.all (fun value => value.data ≠ .stray) &&
    inst.pointers.all fun pointer => pointer ≠ .stray

structure ValidBody (body : Code Inst) : Prop extends body.WellFormed where
  noVoidOperand : ∀ inst, .inst inst ∈ body → inst.noVoidOperand = true
  noStrayRegister : ∀ inst, .inst inst ∈ body → inst.noStrayRegister = true

end Llvm

end Cnegative
