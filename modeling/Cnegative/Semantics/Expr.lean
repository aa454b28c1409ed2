import Cnegative.Library.Chain
import Cnegative.Semantics.State

namespace Cnegative

open Library (Frame Chain)

/-- The LLVM type of a field and its number: `cn_llvm_resolve_field_type`. -/
def resolveField (structs : StructTable) (base : TypeRef) (fieldName : Name) :
    Option (TypeRef × Nat) :=
  match base with
  | .result inner =>
      if fieldName = "ok" then some (.bool, 0)
      else if fieldName = "value" then some (inner, 1)
      else none
  | .slice _ => if fieldName = "length" then some (.int, 1) else none
  | .named moduleName name => do
      let decl ← structs.find moduleName name
      let index ← decl.fields.findIdx? fun field => field.name == fieldName
      let field ← decl.fields[index]?
      return (field.type, index)
  | _ => none

/-- The kinds of expression that `cn_llvm_materialize_address` does not copy. -/
def IrExpr.isPlace : IrExpr → Bool
  | .local _ _ | .field _ _ _ | .index _ _ _ | .deref _ _ => true
  | _ => false

def TypeRef.isSlice : TypeRef → Bool
  | .slice _ => true
  | _ => false

def TypeRef.isPtr : TypeRef → Bool
  | .ptr _ => true
  | _ => false

def TypeRef.arraySize? : TypeRef → Option Nat
  | .array _ size => some size
  | _ => none

def TypeRef.inner? : TypeRef → Option TypeRef
  | .result inner | .ptr inner | .slice inner | .array inner _ => some inner
  | _ => none

namespace Semantics

/-- The cells of the locals in scope. -/
abbrev Env := Chain Name Nat Unit

def Env.push (env : Env) : Env :=
  ⟨[], ()⟩ :: env

def Env.define (env : Env) (name : Name) (cell : Nat) : Env :=
  Chain.define env name cell

variable {ω : Type}

/-- What a call does; functions of the program and of the runtime alike. -/
abbrev Callee (ω : Type) := CallTarget → Name → Name → List Value → Eval ω Value

/-- The two things an expression stands for: its value, and where that is. -/
structure Meaning (ω : Type) where
  value : Eval ω Value
  place : Eval ω Place

/-- A value without a place of its own is copied into a fresh stack cell. -/
def Meaning.rvalue (value : Eval ω Value) : Meaning ω where
  value := value
  place := do Eval.allocate .stack (← value)

def Meaning.lvalue (place : Eval ω Place) : Meaning ω where
  value := do Eval.load (← place)
  place := place

def lookupLocal (env : Env) (name : Name) : Eval ω Place := do
  let found ← Eval.ofOption (Chain.find? env name)
  return ⟨found.2, []⟩

def evalUnary (op : UnaryOp) (operand : Value) : Eval ω Value := do
  match op with
  | .negate => return .int (-(← operand.asInt))
  | .not => return .bool (!(← operand.asBool))

/-- `sdiv` and `srem` on 64 bits. -/
def divide (operation : BitVec 64 → BitVec 64 → BitVec 64) (left right : BitVec 64) :
    Eval ω Value :=
  if right = 0 then throw .divisionByZero
  else if left = BitVec.intMin 64 ∧ right = -1 then Eval.undefined
  else pure (.int (operation left right))

/-- Comparison is signed on `int` and unsigned on `u8`. -/
def compare (signed : Int → Int → Bool) (left right : Value) : Eval ω Value :=
  match left, right with
  | .int left, .int right => pure (.bool (signed left.toInt right.toInt))
  | .u8 left, .u8 right => pure (.bool (signed left.toNat right.toNat))
  | _, _ => Eval.undefined

/-- The operators that evaluate both operands. -/
def evalBinary (op : BinaryOp) (left right : Value) : Eval ω Value := do
  match op with
  | .add => return .int ((← left.asInt) + (← right.asInt))
  | .sub => return .int ((← left.asInt) - (← right.asInt))
  | .mul => return .int ((← left.asInt) * (← right.asInt))
  | .div => divide BitVec.sdiv (← left.asInt) (← right.asInt)
  | .mod => divide BitVec.srem (← left.asInt) (← right.asInt)
  | .equal => return .bool (← Eval.equal left right)
  | .notEqual => return .bool (!(← Eval.equal left right))
  | .less => compare (fun first second => first < second) left right
  | .lessEqual => compare (fun first second => first ≤ second) left right
  | .greater => compare (fun first second => second < first) left right
  | .greaterEqual => compare (fun first second => second ≤ first) left right
  | .and | .or => Eval.undefined

def isZoneRelease (target : CallTarget) (moduleName functionName : Name) : Bool :=
  target = .builtin && moduleName = "" && functionName = "__zone_release"

def evalCall (callee : Callee ω) (target : CallTarget) (moduleName functionName : Name)
    (arguments : List Value) : Eval ω Value := do
  if isZoneRelease target moduleName functionName then
    match arguments with
    | [zone] => do
        Eval.releaseZone zone
        return .void
    | _ => Eval.undefined
  else do
    Eval.log (.call target moduleName functionName arguments)
    callee target moduleName functionName arguments

def itemAt (value : Value) (index : BitVec 64) : Eval ω Value :=
  Eval.ofOption (value.item? index.toInt)

def sliceParts (value : Value) : Eval ω (Option Place × BitVec 64) :=
  match value with
  | .aggregate [.ptr data, .int length] => pure (data, length)
  | _ => Eval.undefined

def elementPlace (data : Option Place) (index : BitVec 64) : Eval ω Place :=
  Eval.ofOption (data.bind fun place => place.offset index.toInt)

/-- The data pointer of a slice that starts `count` elements further. -/
def advance (data : Option Place) (count : BitVec 64) : Eval ω (Option Place) :=
  match data with
  | none => if count = 0 then pure none else Eval.undefined
  | some place => do return some (← Eval.ofOption (place.offset count.toInt))

section

variable (structs : StructTable) (callee : Callee ω) (env : Env)

mutual

/-- What `cn_llvm_lower_expression` and `cn_llvm_lower_address` compute, operands in
the order in which they emit them. -/
def denote : IrExpr → Meaning ω
  | .int type value => .rvalue (pure (Value.ofInt type value))
  | .bool _ value => .rvalue (pure (.bool value))
  | .string _ bytes => .rvalue (pure (.str none bytes))
  | .null _ => .rvalue (pure (.ptr none))
  | .local _ name => .lvalue (lookupLocal env name)
  | .unary _ op operand => .rvalue do evalUnary op (← (denote operand).value)
  | .binary _ op left right =>
      match op with
      | .and => .rvalue do
          if ← (← (denote left).value).asBool then (denote right).value
          else return .bool false
      | .or => .rvalue do
          if ← (← (denote left).value).asBool then return .bool true
          else (denote right).value
      | op => .rvalue do evalBinary op (← (denote left).value) (← (denote right).value)
  | .ifExpr _ condition thenExpr elseExpr => .rvalue do
      if ← (← (denote condition).value).asBool then (denote thenExpr).value
      else (denote elseExpr).value
  | .call _ target moduleName functionName arguments => .rvalue do
      evalCall callee target moduleName functionName (← denoteItems arguments)
  | .arrayLiteral _ items => .rvalue do return .aggregate (← denoteItems items)
  | .sliceFromArray _ base => .rvalue do
      let array ← (denote base).place
      let size ← Eval.ofOption base.type.arraySize?
      return .slice (some (array.child 0)) (BitVec.ofNat 64 size)
  | .index _ base index =>
      if base.type.isSlice then .lvalue do
        let position ← (← (denote index).value).asInt
        let parts ← sliceParts (← (denote base).value)
        elementPlace parts.1 position
      else
        { value := do
            let position ← (← (denote index).value).asInt
            itemAt (← (denote base).value) position
          place := do
            let position ← (← (denote index).value).asInt
            return (← (denote base).place).child position.toInt }
  | .sliceView _ base start stop => .rvalue do
      let first ← denoteBound start
      match base.type.arraySize? with
      | some size => do
          let array ← (denote base).place
          let last ← denoteBound stop
          return .slice (some (array.child (first.getD 0).toInt))
            (last.getD (BitVec.ofNat 64 size) - first.getD 0)
      | none => do
          let parts ← sliceParts (← (denote base).value)
          let data ← advance parts.1 (first.getD 0)
          let last ← denoteBound stop
          return .slice data (last.getD parts.2 - first.getD 0)
  | .field _ base fieldName =>
      if base.type.isPtr then .lvalue do (← (denote base).value).asPlace
      else
        { value := do
            let aggregate ← (denote base).value
            let field ← Eval.ofOption (resolveField structs base.type fieldName)
            Eval.ofOption (aggregate.item? field.2)
          place := do
            let aggregate ← (denote base).place
            let field ← Eval.ofOption (resolveField structs base.type fieldName)
            return aggregate.child field.2 }
  | .structLiteral type moduleName typeName fields => .rvalue do
      let decl ← Eval.ofOption (structs.find moduleName typeName)
      denoteFields decl (Value.zero structs type) fields
  | .ok _ value => .rvalue do return .ok (← (denote value).value)
  | .err type => .rvalue do
      return .err structs (← Eval.ofOption type.inner?)
  | .alloc _ allocType => .rvalue do
      return .ptr (some (← Eval.allocate .heap (Value.uninit structs allocType)))
  | .zalloc _ allocType zoneName => .rvalue do
      let zone ← Eval.load (← lookupLocal env zoneName)
      Eval.zoneAllocate zone (Value.uninit structs allocType)
  | .addr _ target => .rvalue do
      if target.isPlace then return .ptr (some (← (denote target).place))
      else Eval.undefined
  | .deref _ target => .lvalue do (← (denote target).value).asPlace

def denoteItems : List IrExpr → Eval ω (List Value)
  | [] => pure []
  | item :: rest => do
      let first ← (denote item).value
      let remaining ← denoteItems rest
      return first :: remaining

def denoteBound : Option IrExpr → Eval ω (Option (BitVec 64))
  | none => pure none
  | some bound => do return some (← (← (denote bound).value).asInt)

def denoteFields (decl : IrStruct) (aggregate : Value) : List (Name × IrExpr) → Eval ω Value
  | [] => pure aggregate
  | (fieldName, value) :: rest => do
      let index ← Eval.ofOption (decl.fields.findIdx? fun field => field.name == fieldName)
      let stored ← (denote value).value
      denoteFields decl (← Eval.ofOption (aggregate.set? stored [index])) rest

end

end

end Semantics

end Cnegative
