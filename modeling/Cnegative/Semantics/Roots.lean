import Cnegative.Semantics.Expr

namespace Cnegative

/-! The way an expression reaches storage: through a pointer or a slice, from a local, or by
way of a copy on the stack. -/

def IrExpr.pointerBase : IrExpr → Option IrExpr
  | .deref _ target => some target
  | .field _ base _ => if base.type.isPtr then some base else base.pointerBase
  | .index _ base _ => if base.type.isSlice then some base else base.pointerBase
  | _ => none

def IrExpr.startsAtLocal : IrExpr → Bool
  | .local _ _ => true
  | .field _ base _ => base.startsAtLocal
  | .index _ base _ => base.startsAtLocal
  | _ => false

def IrExpr.Rooted (target : IrExpr) : Prop :=
  target.startsAtLocal = true ∨ target.pointerBase.isSome = true

instance (target : IrExpr) : Decidable target.Rooted :=
  inferInstanceAs (Decidable (_ ∨ _))

theorem IrExpr.not_rooted {target : IrExpr} (hplace : target.isPlace = false) :
    ¬ target.Rooted := by
  cases target <;> simp_all [IrExpr.isPlace, IrExpr.Rooted, IrExpr.startsAtLocal,
    IrExpr.pointerBase]

theorem IrExpr.rooted_field {type : TypeRef} {base : IrExpr} {fieldName : Name}
    (hptr : base.type.isPtr = false) : (IrExpr.field type base fieldName).Rooted ↔ base.Rooted := by
  simp [IrExpr.Rooted, IrExpr.startsAtLocal, IrExpr.pointerBase, hptr]

theorem IrExpr.rooted_index {type : TypeRef} {base index : IrExpr}
    (hslice : base.type.isSlice = false) : (IrExpr.index type base index).Rooted ↔ base.Rooted := by
  simp [IrExpr.Rooted, IrExpr.startsAtLocal, IrExpr.pointerBase, hslice]

mutual

/-- Nothing in the expression takes the address of a value that has no place, so that
`cn_llvm_materialize_address` has nothing to copy for its value. -/
def IrExpr.copiesNothing : IrExpr → Bool
  | .unary _ _ operand | .field _ operand _ | .ok _ operand | .deref _ operand =>
      operand.copiesNothing
  | .binary _ _ left right | .index _ left right => left.copiesNothing && right.copiesNothing
  | .ifExpr _ condition thenExpr elseExpr =>
      condition.copiesNothing && (thenExpr.copiesNothing && elseExpr.copiesNothing)
  | .call _ _ _ _ arguments => itemsCopyNothing arguments
  | .arrayLiteral _ items => itemsCopyNothing items
  | .sliceFromArray _ base | .addr _ base => base.copiesNothing && base.Rooted
  | .sliceView _ base start stop =>
      (base.copiesNothing && (base.type.arraySize?.isNone || base.Rooted)) &&
        (boundCopiesNothing start && boundCopiesNothing stop)
  | .structLiteral _ _ _ fields => fieldsCopyNothing fields
  | .int _ _ | .bool _ _ | .string _ _ | .null _ | .local _ _ | .err _ | .alloc _ _
  | .zalloc _ _ _ => true

def boundCopiesNothing : Option IrExpr → Bool
  | none => true
  | some bound => bound.copiesNothing

def itemsCopyNothing : List IrExpr → Bool
  | [] => true
  | item :: rest => item.copiesNothing && itemsCopyNothing rest

def fieldsCopyNothing : List (Name × IrExpr) → Bool
  | [] => true
  | (_, value) :: rest => value.copiesNothing && fieldsCopyNothing rest

end

mutual

/-- The expression whose storage the place is part of, if the way there is taken on the spot: a
local, or a value without a place, which is copied. -/
def IrExpr.owner : IrExpr → Option IrExpr
  | .field _ base _ => if base.type.isPtr then base.pointee else base.owner
  | .index _ base _ => if base.type.isSlice then base.pointee else base.owner
  | .deref _ target => target.pointee
  | value => some value

/-- The same for what a pointer or a slice points to; it may also have been made elsewhere. -/
def IrExpr.pointee : IrExpr → Option IrExpr
  | .sliceFromArray _ base | .addr _ base => base.owner
  | .sliceView _ base _ _ =>
      if base.type.arraySize?.isSome then base.owner else base.pointee
  | _ => none

end

def IrExpr.isCopied (target : IrExpr) : Bool :=
  target.owner.any fun value => !value.isPlace

/-- The place is behind a pointer or a slice that was made elsewhere. -/
def IrExpr.isLoaded (target : IrExpr) : Bool :=
  target.owner.isNone

end Cnegative
