import Cnegative.Check.Accepted
import Cnegative.Lower.Project

namespace Cnegative

open Checker (Resolved resolveSourceNamedConst)
open Check (constType)

/-! `n.f` on a local `n`: both passes ask for a constant `f` of a module `n` before they
look at the scope. -/

namespace Check

/-- What `n.f` checks to as the field of a local of this type. -/
def localField (ctx : Context) (scope : Scope) (name fieldName : Name) (type : TypeRef) :
    TypeRef × List DiagCode :=
  fieldResult ctx type fieldName (namedResultIsOk scope (.name name))

end Check

namespace Lower

/-- What `n.f` lowers to as the field of a local of this type. -/
def localField (ctx : Context) (expected : Option TypeRef) (name fieldName : Name)
    (type : TypeRef) : Option IrExpr :=
  (fieldType ctx type fieldName).map fun fieldType =>
    wrapArrayAsSlice (.field fieldType (.local type name) fieldName) expected

end Lower

/-- `name` is a local of this type where a pass meets it. -/
structure BoundLocal (scope : Check.Scope) (lowered : Lower.Scope) (name : Name)
    (type : TypeRef) : Prop where
  checked : (scope.find? name).map (fun found => found.2.type) = some type
  lowered : (lowered.find? name).map (fun found => found.2.type) = some type

/-- An accepted and lowered `name.fieldName`. -/
structure FieldReading (project : Project) (own : ModuleId) (constFuel : Nat)
    (scope : Check.Scope) (lowered : Lower.Scope) (expected : Option TypeRef)
    (name fieldName : Name) where
  value : IrExpr
  accepted : (Check.checkExpr ⟨project, own⟩ scope expected
    (.field (.name name) fieldName)).2 = []
  compiled : Lower.lowerExpr ⟨project, own⟩ (Lower.lowerConstUse project constFuel) lowered
    expected (.field (.name name) fieldName) = some value

namespace FieldReading

variable {project : Project} {self : ModuleId} {constFuel : Nat} {scope : Check.Scope}
  {lowered : Lower.Scope} {expected : Option TypeRef} {name fieldName : Name}

/-- What the checker answers for the expression. -/
def checked (_ : FieldReading project self constFuel scope lowered expected name fieldName) :
    TypeRef × List DiagCode :=
  Check.checkExpr ⟨project, self⟩ scope expected (.field (.name name) fieldName)

/-- The expression is the field of the local for both passes. -/
def IsLocal (reading : FieldReading project self constFuel scope lowered expected name fieldName)
    (type : TypeRef) : Prop :=
  reading.checked = Check.localField ⟨project, self⟩ scope name fieldName type ∧
    some reading.value = Lower.localField ⟨project, self⟩ expected name fieldName type

end FieldReading

/-- No module of that name offers such a constant to the lowering, nor to the checker
unless the constant has the type of the field. -/
def NoQualifiedConst (project : Project) (self : ModuleId) (scope : Check.Scope)
    (name fieldName : Name) (type : TypeRef) : Prop :=
  Lowering.resolveSourceNamedConst project self name fieldName = none ∧
    ∀ resolved, resolveSourceNamedConst project self name fieldName = some resolved →
      Check.localField ⟨project, self⟩ scope name fieldName type =
        (constType project resolved, [])

/-! A constant lowers to no field of a local. -/

def IrExpr.readsLocal : IrExpr → Bool
  | .local _ _ => true
  | .field _ base _ => base.readsLocal
  | .sliceFromArray _ base => base.readsLocal
  | _ => false

namespace Lower

theorem readsLocal_wrapArrayAsSlice (expression : IrExpr) (expected : Option TypeRef) :
    (wrapArrayAsSlice expression expected).readsLocal = expression.readsLocal := by
  unfold wrapArrayAsSlice
  split
  · split
    · rfl
    · rfl
  · rfl

theorem readsLocal_arrayLiteralResult (items : List IrExpr) (expected : Option TypeRef) :
    (arrayLiteralResult items expected).readsLocal = false := by
  unfold arrayLiteralResult
  split
  · rfl
  · exact readsLocal_wrapArrayAsSlice _ _

theorem readsLocal_lowerExpr {ctx : Context} {constUse : ConstUse}
    (hconst : ∀ resolved expected lowered, constUse resolved expected = some lowered →
      lowered.readsLocal = false) :
    (expression : Expr) → ∀ (expected : Option TypeRef) (lowered : IrExpr),
      lowerExpr ctx constUse [] expected expression = some lowered → lowered.readsLocal = false
  | .field base fieldName => by
      intro expected lowered hlowered
      rw [lowerExpr] at hlowered
      split at hlowered
      · simp only [Option.bind_eq_bind, Option.bind_eq_some_iff, Option.pure_def,
          Option.some.injEq] at hlowered
        obtain ⟨value, hvalue, rfl⟩ := hlowered
        rw [readsLocal_wrapArrayAsSlice]
        exact hconst _ _ _ hvalue
      · simp only [Option.bind_eq_bind, Option.bind_eq_some_iff, Option.pure_def,
          Option.some.injEq] at hlowered
        obtain ⟨value, hvalue, type, -, rfl⟩ := hlowered
        rw [readsLocal_wrapArrayAsSlice]
        exact readsLocal_lowerExpr hconst base none value hvalue
  | .name name => by
      intro expected lowered hlowered
      simp only [lowerExpr, Library.Chain.find?, Option.bind_eq_bind,
        Option.bind_eq_some_iff] at hlowered
      obtain ⟨resolved, -, huse⟩ := hlowered
      exact hconst _ _ _ huse
  | .int _ | .bool _ | .string _ | .alloc _ => by
      intro expected lowered hlowered
      simp only [lowerExpr, Option.some.injEq] at hlowered
      rw [← hlowered]
      rfl
  | .null => by
      intro expected lowered hlowered
      unfold lowerExpr at hlowered
      split at hlowered
      · rw [← Option.some.inj hlowered]
        rfl
      · rw [← Option.some.inj hlowered]
        rfl
  | .err => by
      intro expected lowered hlowered
      unfold lowerExpr at hlowered
      split at hlowered
      · rw [← Option.some.inj hlowered]
        rfl
      · cases hlowered
  | .zalloc _ => by
      intro expected lowered hlowered
      rw [lowerExpr] at hlowered
      split at hlowered
      · cases hlowered
      · rw [← Option.some.inj hlowered]
        rfl
  | .unary _ _ => by
      intro expected lowered hlowered
      simp only [lowerExpr, Option.bind_eq_bind, Option.bind_eq_some_iff, Option.pure_def,
        Option.some.injEq] at hlowered
      obtain ⟨_, -, rfl⟩ := hlowered
      exact readsLocal_wrapArrayAsSlice _ _
  | .call _ _ => by
      intro expected lowered hlowered
      simp only [lowerExpr, Option.bind_eq_bind, Option.bind_eq_some_iff, Option.pure_def,
        Option.some.injEq] at hlowered
      obtain ⟨_, -, _, -, rfl⟩ := hlowered
      exact readsLocal_wrapArrayAsSlice _ _
  | .ifExpr _ _ _ | .index _ _ => by
      intro expected lowered hlowered
      simp only [lowerExpr, Option.bind_eq_bind, Option.bind_eq_some_iff, Option.pure_def,
        Option.some.injEq] at hlowered
      obtain ⟨_, -, _, -, _, -, rfl⟩ := hlowered
      exact readsLocal_wrapArrayAsSlice _ _
  | .sliceView _ _ _ => by
      intro expected lowered hlowered
      simp only [lowerExpr, Option.bind_eq_bind, Option.bind_eq_some_iff, Option.pure_def,
        Option.some.injEq] at hlowered
      obtain ⟨_, -, _, -, _, -, _, -, rfl⟩ := hlowered
      exact readsLocal_wrapArrayAsSlice _ _
  | .ok _ | .addr _ => by
      intro expected lowered hlowered
      simp only [lowerExpr, Option.bind_eq_bind, Option.bind_eq_some_iff, Option.pure_def,
        Option.some.injEq] at hlowered
      obtain ⟨_, -, rfl⟩ := hlowered
      rfl
  | .structLiteral _ _ _ => by
      intro expected lowered hlowered
      simp only [lowerExpr, Option.bind_eq_bind, Option.bind_eq_some_iff, Option.pure_def,
        Option.some.injEq] at hlowered
      obtain ⟨_, -, _, -, rfl⟩ := hlowered
      rfl
  | .binary _ left right => by
      intro expected lowered hlowered
      rw [lowerExpr] at hlowered
      split at hlowered
      all_goals
        simp only [Option.bind_eq_bind, Option.bind_eq_some_iff, Option.pure_def,
          Option.some.injEq] at hlowered
        obtain ⟨_, -, _, -, rfl⟩ := hlowered
        rfl
  | .arrayLiteral items repeatCount => by
      intro expected lowered hlowered
      unfold lowerExpr at hlowered
      split at hlowered
      · simp only [Option.bind_eq_bind, Option.bind_eq_some_iff, Option.pure_def,
          Option.some.injEq] at hlowered
        obtain ⟨_, -, rfl⟩ := hlowered
        exact readsLocal_arrayLiteralResult _ _
      · rw [← Option.some.inj hlowered]
        exact readsLocal_arrayLiteralResult _ _
      · simp only [Option.bind_eq_bind, Option.bind_eq_some_iff, Option.pure_def,
          Option.some.injEq] at hlowered
        obtain ⟨_, -, rfl⟩ := hlowered
        exact readsLocal_arrayLiteralResult _ _
  | .deref _ => by
      intro expected lowered hlowered
      simp only [lowerExpr, Option.bind_eq_bind, Option.bind_eq_some_iff] at hlowered
      obtain ⟨value, -, hlowered⟩ := hlowered
      split at hlowered
      · rw [← Option.some.inj hlowered]
        rfl
      · cases hlowered

theorem readsLocal_lowerConstUse (project : Project) (fuel : Nat) :
    ∀ (resolved : Resolved ConstDecl) (expected : Option TypeRef) (lowered : IrExpr),
      lowerConstUse project fuel resolved expected = some lowered → lowered.readsLocal = false := by
  induction fuel with
  | zero => exact fun _ _ _ hlowered => by simp [lowerConstUse] at hlowered
  | succ fuel ih => exact fun resolved => readsLocal_lowerExpr ih resolved.2.initializer

theorem readsLocal_localField {ctx : Context} {expected : Option TypeRef} {name fieldName : Name}
    {type : TypeRef} {value : IrExpr}
    (hvalue : localField ctx expected name fieldName type = some value) :
    value.readsLocal = true := by
  obtain ⟨fieldType, -, rfl⟩ := Option.map_eq_some_iff.mp hvalue
  exact readsLocal_wrapArrayAsSlice _ _

end Lower

section Reading

variable {project : Project} {self : ModuleId} {constFuel : Nat} {scope : Check.Scope}
  {lowered : Lower.Scope} {expected : Option TypeRef} {name fieldName : Name} {type : TypeRef}

theorem FieldReading.checked_eq
    (reading : FieldReading project self constFuel scope lowered expected name fieldName)
    (hbound : BoundLocal scope lowered name type) :
    reading.checked =
      match resolveSourceNamedConst project self name fieldName with
      | some resolved => (constType project resolved, [])
      | none => Check.localField ⟨project, self⟩ scope name fieldName type := by
  have haccepted := reading.accepted
  unfold FieldReading.checked
  rw [Check.checkExpr] at haccepted ⊢
  simp only [Check.Context.sourceConst?] at haccepted ⊢
  cases hconst : resolveSourceNamedConst project self name fieldName with
  | some resolved => rfl
  | none =>
      simp only [hconst] at haccepted ⊢
      obtain ⟨found, hfound, htype⟩ := Option.map_eq_some_iff.mp hbound.checked
      split at haccepted
      · simp at haccepted
      · rename_i himported
        rw [if_neg himported]
        simp [Check.checkExpr, Check.checkName, hfound, htype, Check.localField]

theorem FieldReading.value_eq
    (reading : FieldReading project self constFuel scope lowered expected name fieldName)
    (hbound : BoundLocal scope lowered name type)
    (hnone : Lowering.resolveSourceNamedConst project self name fieldName = none) :
    some reading.value = Lower.localField ⟨project, self⟩ expected name fieldName type := by
  have hcompiled := reading.compiled
  obtain ⟨found, hfound, htype⟩ := Option.map_eq_some_iff.mp hbound.lowered
  rw [← hcompiled]
  simp only [Lower.lowerExpr, Lower.Context.sourceConst?, hnone, hfound, htype,
    Lower.wrapArrayAsSlice, Option.bind_eq_bind, Option.bind_some, IrExpr.type, Lower.localField]
  cases Lower.fieldType ⟨project, self⟩ type fieldName with
  | none => rfl
  | some fieldType => rfl

theorem FieldReading.not_local_of_const
    (reading : FieldReading project self constFuel scope lowered expected name fieldName)
    {resolved : Resolved ConstDecl}
    (hconst : Lowering.resolveSourceNamedConst project self name fieldName = some resolved) :
    some reading.value ≠ Lower.localField ⟨project, self⟩ expected name fieldName type := by
  intro hlocal
  have hcompiled := reading.compiled
  simp only [Lower.lowerExpr, Lower.Context.sourceConst?, hconst, Option.bind_eq_bind,
    Option.bind_eq_some_iff, Option.pure_def, Option.some.injEq] at hcompiled
  obtain ⟨value, huse, hvalue⟩ := hcompiled
  have hreads := Lower.readsLocal_localField hlocal.symm
  rw [← hvalue, Lower.readsLocal_wrapArrayAsSlice,
    Lower.readsLocal_lowerConstUse project constFuel resolved none value huse] at hreads
  contradiction

theorem FieldReading.isLocal_iff
    (reading : FieldReading project self constFuel scope lowered expected name fieldName)
    (hbound : BoundLocal scope lowered name type) :
    reading.IsLocal type ↔
      NoQualifiedConst project self scope name fieldName type := by
  constructor
  · rintro ⟨hchecked, hvalue⟩
    constructor
    · cases hconst : Lowering.resolveSourceNamedConst project self name fieldName with
      | none => rfl
      | some resolved => exact absurd hvalue (reading.not_local_of_const hconst)
    · intro resolved hresolved
      rw [← hchecked, reading.checked_eq hbound, hresolved]
  · rintro ⟨hnone, hchecker⟩
    refine ⟨?_, reading.value_eq hbound hnone⟩
    rw [reading.checked_eq hbound]
    cases hconst : resolveSourceNamedConst project self name fieldName with
    | none => rfl
    | some resolved => exact (hchecker resolved hconst).symm

end Reading

/-- A field of a local is read as such just when no module of the local's name has a
constant of the field's name; imports and constants that a project gains change the
meaning of no other expression. -/
theorem local_field_wins_iff {project : Project} {self : ModuleId} {constFuel : Nat}
    {scope : Check.Scope} {lowered : Lower.Scope} {expected : Option TypeRef}
    {name fieldName : Name} {type : TypeRef} (hbound : BoundLocal scope lowered name type)
    (reading : FieldReading project self constFuel scope lowered expected name fieldName) :
    (reading.IsLocal type ↔
        NoQualifiedConst project self scope name fieldName type) ∧
      ∀ (extended : Project) (extendedFuel : Nat)
        (later : FieldReading extended self extendedFuel scope lowered expected name fieldName),
        Check.localField ⟨extended, self⟩ scope name fieldName type =
            Check.localField ⟨project, self⟩ scope name fieldName type →
        Lower.localField ⟨extended, self⟩ expected name fieldName type =
            Lower.localField ⟨project, self⟩ expected name fieldName type →
        NoQualifiedConst project self scope name fieldName type →
          ((later.checked = reading.checked ∧ later.value = reading.value) ↔
            NoQualifiedConst extended self scope name fieldName type) := by
  refine ⟨reading.isLocal_iff hbound, ?_⟩
  intro extended extendedFuel later hcheck hlower hnone
  obtain ⟨hchecked, hvalue⟩ := (reading.isLocal_iff hbound).mpr hnone
  rw [← later.isLocal_iff hbound, FieldReading.IsLocal, hcheck, hlower, ← hchecked, ← hvalue,
    Option.some.injEq]

/-- Module `main` with `const <constName>:int = 5`, and a local `main` with a field `x`. -/
def pointProject (constName : Name) : Project :=
  ⟨[⟨false, "main", ⟨[], [⟨false, constName, .int, .int 5⟩], [⟨false, "P", [⟨"x", .int⟩]⟩],
    [mainFunction [
      .letStmt "main" false (.named "" "P") (.structLiteral "" "P" [("x", .int 1)]),
      .returnStmt (some (.field (.name "main") "x"))]]⟩, []⟩]⟩

def pointScope : Check.Scope :=
  [⟨[("main", ⟨.named "main" "P", false, 0, 0, none⟩)], ⟨[], 0⟩⟩]

def pointLowered : Lower.Scope :=
  [⟨[("main", ⟨.named "main" "P", false⟩)], ""⟩]

theorem pointScope_bound : BoundLocal pointScope pointLowered "main" (.named "main" "P") :=
  ⟨by decide, by decide⟩

def pointReading :
    FieldReading (pointProject "y") 0 1 pointScope pointLowered (some .int) "main" "x" :=
  ⟨.field .int (.local (.named "main" "P") "main") "x", by decide, rfl⟩

theorem pointReading_isLocal : pointReading.IsLocal (.named "main" "P") :=
  (local_field_wins_iff pointScope_bound pointReading).1.mpr ⟨rfl, fun _ hconst => by cases hconst⟩

/-- With `const x` the function returns the constant. -/
theorem qualified_const_beats_local :
    Check.Accepted (pointProject "x") ∧
      (∃ program, Lower.lowerProject (pointProject "x") = some program ∧
        program.modules.flatMap (fun module => module.functions.map (fun function =>
          function.body.getLast?)) = [some (.returnStmt (some (.int .int 5)))]) ∧
      BoundLocal pointScope pointLowered "main" (.named "main" "P") ∧
      ∃ reading : FieldReading (pointProject "x") 0 1 pointScope pointLowered (some .int)
        "main" "x", ¬ reading.IsLocal (.named "main" "P") := by
  refine ⟨by decide, ⟨_, rfl, rfl⟩, pointScope_bound, ⟨.int .int 5, by decide, rfl⟩, ?_⟩
  rintro ⟨-, hvalue⟩
  cases hvalue

end Cnegative
