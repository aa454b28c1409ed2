import Cnegative.Check.Scope
import Cnegative.Resolution.Checker

namespace Cnegative

def TypeRef.isIntegerLike : TypeRef → Bool
  | .int | .u8 => true
  | _ => false

namespace Check

open Library (Ref Frame Chain)
open Checker (Resolved resolveSourceNamedConst resolveSourceNamedStruct
  resolveCanonicalNamedStruct findImportedModule)

/-- What `cn_sema_ctx` provides while one module is checked. -/
structure Context where
  project : Project
  self : ModuleId

def Context.module? (ctx : Context) : Option Module :=
  ctx.project.modules[ctx.self]?

def Context.imported? (ctx : Context) (name : Name) : Option ModuleId :=
  ctx.module?.bind fun module => findImportedModule module name

def moduleName (project : Project) (id : ModuleId) : Name :=
  match project.modules[id]? with
  | none => ""
  | some module => module.name

/-- The module name `cn_validate_type_ref` leaves in a type of module `self`. -/
def canonType (project : Project) (self : ModuleId) : TypeRef → TypeRef
  | .result inner => .result (canonType project self inner)
  | .ptr inner => .ptr (canonType project self inner)
  | .slice inner => .slice (canonType project self inner)
  | .array inner size => .array (canonType project self inner) size
  | .named qualifier name =>
      match resolveSourceNamedStruct project self qualifier name with
      | none => .named qualifier name
      | some resolved => .named (moduleName project resolved.1) name
  | type => type

def Context.canon (ctx : Context) (type : TypeRef) : TypeRef :=
  canonType ctx.project ctx.self type

/-- The diagnostics of `cn_validate_type_ref`. -/
def Context.validate (ctx : Context) : TypeRef → List DiagCode
  | .result inner | .ptr inner | .slice inner | .array inner _ => ctx.validate inner
  | .named qualifier name =>
      match resolveSourceNamedStruct ctx.project ctx.self qualifier name with
      | none => [.E3012]
      | some _ => []
  | _ => []

def constType (project : Project) (resolved : Resolved ConstDecl) : TypeRef :=
  canonType project resolved.1 resolved.2.type

/-- `cn_find_struct_field`, with the field's checked type. -/
def findStructField (project : Project) (resolved : Resolved StructDecl) (fieldName : Name) :
    Option TypeRef :=
  (resolved.2.fields.find? (fun field => field.name == fieldName)).map
    fun field => canonType project resolved.1 field.type

def Context.isExportable (ctx : Context) : TypeRef → Bool
  | .int | .u8 | .bool | .str | .void | .null => true
  | .result inner | .ptr inner | .slice inner | .array inner _ => ctx.isExportable inner
  | .named qualifier name =>
      match resolveCanonicalNamedStruct ctx.project ctx.self qualifier name with
      | none => false
      | some resolved => resolved.2.isPublic
  | .unknown => false

def canAssignTo (expected actual : TypeRef) : Bool :=
  expected = actual ||
    match expected, actual with
    | .slice element, .array item _ => element = item
    | .ptr _, .null => true
    | _, _ => false

def matchesEqualityOperands (left right : TypeRef) : Bool :=
  left = right ||
    match left, right with
    | .ptr _, .null => true
    | .null, .ptr _ => true
    | _, _ => false

/-- `cn_type_may_carry_zone_value_inner` outside the struct case. -/
def mayCarryWith (onStruct : Name → Name → Bool) : TypeRef → Bool
  | .ptr _ | .slice _ | .unknown => true
  | .result inner | .array inner _ => mayCarryWith onStruct inner
  | .named qualifier name => onStruct qualifier name
  | _ => false

/-- The struct case: `room` is what is left of the 32 entries of the stack. -/
def mayCarryStruct (ctx : Context) : Nat → List (Name × Name) → Name → Name → Bool
  | room, stack, qualifier, name =>
      match resolveCanonicalNamedStruct ctx.project ctx.self qualifier name with
      | none => true
      | some resolved =>
          let entry := (moduleName ctx.project resolved.1, resolved.2.name)
          if stack.contains entry then false
          else
            match room with
            | 0 => true
            | room + 1 =>
                resolved.2.fields.any fun field =>
                  mayCarryWith (mayCarryStruct ctx room (entry :: stack))
                    (canonType ctx.project resolved.1 field.type)

def Context.mayCarryZoneValue (ctx : Context) (type : TypeRef) : Bool :=
  mayCarryWith (mayCarryStruct ctx 32 []) type

mutual

def exprZoneDepth (ctx : Context) (scope : Scope) : Expr → TypeRef → Nat
  | expression, valueType =>
      if !ctx.mayCarryZoneValue valueType then 0
      else
        match expression with
        | .zalloc _ => scope.zoneDepth
        | .name name =>
            match scope.find? name with
            | some found => found.2.valueZoneDepth
            | none => 0
        | .ifExpr _ thenExpr elseExpr =>
            max (exprZoneDepth ctx scope thenExpr valueType)
              (exprZoneDepth ctx scope elseExpr valueType)
        | .ok value =>
            match valueType with
            | .result inner => exprZoneDepth ctx scope value inner
            | _ => 0
        | .field base _ => exprZoneDepth ctx scope base valueType
        | .index base _ => exprZoneDepth ctx scope base valueType
        | .sliceView base _ _ => exprZoneDepth ctx scope base valueType
        | .structLiteral _ _ fields =>
            match valueType with
            | .named qualifier name =>
                match resolveCanonicalNamedStruct ctx.project ctx.self qualifier name with
                | some resolved => fieldsZoneDepth ctx scope resolved fields
                | none => 0
            | _ => 0
        | .arrayLiteral items _ =>
            match valueType with
            | .array inner _ => itemsZoneDepth ctx scope items inner
            | .slice inner => itemsZoneDepth ctx scope items inner
            | _ => 0
        | _ => 0

def itemsZoneDepth (ctx : Context) (scope : Scope) : List Expr → TypeRef → Nat
  | [], _ => 0
  | item :: rest, inner =>
      max (exprZoneDepth ctx scope item inner) (itemsZoneDepth ctx scope rest inner)

def fieldsZoneDepth (ctx : Context) (scope : Scope) (resolved : Resolved StructDecl) :
    List (Name × Expr) → Nat
  | [] => 0
  | (fieldName, value) :: rest =>
      match findStructField ctx.project resolved fieldName with
      | none => fieldsZoneDepth ctx scope resolved rest
      | some type =>
          max (exprZoneDepth ctx scope value type) (fieldsZoneDepth ctx scope resolved rest)

end

/-- The constant a `base.fieldName` with a plain name as base denotes, if any. -/
def Context.sourceConst? (ctx : Context) (base : Expr) (fieldName : Name) :
    Option (Resolved ConstDecl) :=
  match base with
  | .name qualifier => resolveSourceNamedConst ctx.project ctx.self qualifier fieldName
  | _ => none

def storageZoneDepth (ctx : Context) (scope : Scope) : Expr → Nat
  | .name name =>
      match scope.find? name with
      | some found => found.2.scopeZoneDepth
      | none => 0
  | .field base fieldName =>
      if (ctx.sourceConst? base fieldName).isSome then 0
      else storageZoneDepth ctx scope base
  | .index base _ => storageZoneDepth ctx scope base
  | .deref target => storageZoneDepth ctx scope target
  | _ => 0

end Check

end Cnegative
