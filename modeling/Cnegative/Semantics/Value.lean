import Cnegative.Syntax.Ir

namespace Cnegative

/-! Run-time values of the IR.  A `result` is the pair of its ok flag and its
payload and a `slice` the pair of its data pointer and its length, as in the
LLVM types `{ i1, T }` and `{ ptr, i64 }`.  A string the runtime allocated knows
the cell that `free` ends; a literal has none. -/

/-- A memory cell and the way into its value: field numbers and array indices. -/
structure Place where
  cell : Nat
  path : List Int
  deriving DecidableEq, Repr

inductive Value where
  | int (value : BitVec 64)
  | u8 (value : BitVec 8)
  | bool (value : Bool)
  | str (owner : Option Nat) (bytes : List UInt8)
  | ptr (target : Option Place)
  | zone (handle : Nat)
  | aggregate (items : List Value)
  | void
  | undef
  deriving Repr, Inhabited

namespace Value

def ofInt (type : TypeRef) (value : BitVec 64) : Value :=
  match type with
  | .u8 => .u8 (value.setWidth 8)
  | _ => .int value

def ok (value : Value) : Value :=
  .aggregate [.bool true, value]

def slice (data : Option Place) (length : BitVec 64) : Value :=
  .aggregate [.ptr data, .int length]

/-- What `strcmp` sees of a string. -/
def cstring (bytes : List UInt8) : List UInt8 :=
  bytes.takeWhile (· ≠ 0)

mutual

/-- `cn_llvm_emit_value_equality`; `none` where an operand is not defined. -/
def equal : Value → Value → Option Bool
  | .int left, .int right => some (left = right)
  | .u8 left, .u8 right => some (left = right)
  | .bool left, .bool right => some (left = right)
  | .str _ left, .str _ right => some (cstring left = cstring right)
  | .ptr left, .ptr right => some (left = right)
  | .aggregate left, .aggregate right => itemsEqual left right
  | _, _ => none

def itemsEqual : List Value → List Value → Option Bool
  | [], [] => some true
  | left :: lefts, right :: rights => do
      let first ← equal left right
      let rest ← itemsEqual lefts rights
      return first && rest
  | _, _ => none

end

def item? (value : Value) (index : Int) : Option Value :=
  match value with
  | .aggregate items => if index < 0 then none else items[index.toNat]?
  | _ => none

def get? (value : Value) : List Int → Option Value
  | [] => some value
  | index :: path => (value.item? index).bind fun item => item.get? path

def set? (value : Value) (stored : Value) : List Int → Option Value
  | [] => some stored
  | index :: path =>
      match value with
      | .aggregate items =>
          if index < 0 then none
          else do
            let item ← items[index.toNat]?
            let changed ← item.set? stored path
            return .aggregate (items.set index.toNat changed)
      | _ => none

/-- A value of the type with `leaf` for its scalars; `onStruct` gives the value
of a struct type. -/
def fillWith (leaf : TypeRef → Value) (onStruct : Name → Name → Value) : TypeRef → Value
  | .result inner => .aggregate [leaf .bool, fillWith leaf onStruct inner]
  | .slice inner => .aggregate [leaf (.ptr inner), leaf .int]
  | .array inner size => .aggregate (List.replicate size (fillWith leaf onStruct inner))
  | .named moduleName name => onStruct moduleName name
  | type => leaf type

/-- The struct case, through at most `depth` nested structs. -/
def fillStruct (leaf : TypeRef → Value) (structs : StructTable) : Nat → Name → Name → Value
  | 0, _, _ => .undef
  | depth + 1, moduleName, name =>
      match structs.find moduleName name with
      | none => .undef
      | some decl =>
          .aggregate (decl.fields.map fun field =>
            fillWith leaf (fillStruct leaf structs depth) field.type)

def structDepth (structs : StructTable) : Nat :=
  (structs.flatMap Prod.snd).length

/-- `zeroinitializer`; a null `str` has no bytes to compare. -/
def zeroLeaf : TypeRef → Value
  | .int => .int 0
  | .u8 => .u8 0
  | .bool => .bool false
  | .ptr _ | .null => .ptr none
  | .void => .void
  | _ => .undef

def zero (structs : StructTable) : TypeRef → Value :=
  fillWith zeroLeaf (fillStruct zeroLeaf structs (structDepth structs))

/-- The contents of fresh memory. -/
def uninit (structs : StructTable) : TypeRef → Value :=
  fillWith (fun _ => .undef) (fillStruct (fun _ => .undef) structs (structDepth structs))

def err (structs : StructTable) (inner : TypeRef) : Value :=
  .aggregate [.bool false, zero structs inner]

end Value

namespace Place

def child (place : Place) (index : Int) : Place :=
  { place with path := place.path ++ [index] }

/-- `getelementptr` on a pointer to an element: the element `count` further. -/
def offset (place : Place) (count : Int) : Option Place :=
  match place.path.getLast? with
  | some index => some { place with path := place.path.dropLast ++ [index + count] }
  | none => if count = 0 then some place else none

end Place

end Cnegative
