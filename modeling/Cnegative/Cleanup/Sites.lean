import Cnegative.Cleanup.Hygiene

namespace Cnegative

open Library (Ref Frame Chain)
open Library.Chain (Extends names shape)
open Check (Accepted)

/-! The scopes in which the backend resolves the names of the IR: the frames
that `cn_llvm_emit_statement` and `cn_llvm_emit_block` open and fill. -/

abbrev IrScope := Chain Name Unit Unit

namespace IrScope

def push (scope : IrScope) : IrScope :=
  ⟨[], ()⟩ :: scope

def define (scope : IrScope) (name : Name) : IrScope :=
  Chain.define scope name ()

end IrScope

def IrStmt.scopeAfter (scope : IrScope) : IrStmt → IrScope
  | .letStmt name _ _ _ => scope.define name
  | _ => scope

def IrBlock.scopeAfter (scope : IrScope) (block : IrBlock) : IrScope :=
  block.foldl IrStmt.scopeAfter scope

mutual

def IrStmt.sites (scope : IrScope) : IrStmt → List (IrScope × IrStmt)
  | .zone zoneName body => blockSites ((scope.push.define zoneName).push) body
  | .ifStmt _ thenBlock elseBlock => blockSites scope.push thenBlock ++ elseSites scope elseBlock
  | .whileStmt _ body | .loop body => blockSites scope.push body
  | .forStmt name _ _ _ body => blockSites ((scope.push.define name).push) body
  | _ => []

def elseSites (scope : IrScope) : Option (List IrStmt) → List (IrScope × IrStmt)
  | none => []
  | some block => blockSites scope.push block

def blockSites (scope : IrScope) : List IrStmt → List (IrScope × IrStmt)
  | [] => []
  | statement :: rest =>
      (scope, statement) :: (statement.sites scope ++ blockSites (statement.scopeAfter scope) rest)

end

theorem blockSites_append (scope : IrScope) (first second : IrBlock) :
    blockSites scope (first ++ second) =
      blockSites scope first ++ blockSites (IrBlock.scopeAfter scope first) second := by
  induction first generalizing scope with
  | nil => rfl
  | cons statement rest ih =>
      simp only [List.cons_append, blockSites, ih, IrBlock.scopeAfter, List.foldl_cons,
        List.append_assoc]

namespace Lower

/-- The cleanup statement stands in the IR, in a scope with the frames of its site. -/
def Emission.StandsIn (ctx : Context) (constUse : ConstUse) (sites : List (IrScope × IrStmt))
    (emission : Emission) : Prop :=
  ∃ place ∈ sites, emitEntry ctx constUse emission.entry = some place.2 ∧
    shape place.1 = shape emission.site

theorem Emission.StandsIn.mono {ctx : Context} {constUse : ConstUse}
    {sites more : List (IrScope × IrStmt)} {emission : Emission}
    (hstands : emission.StandsIn ctx constUse sites) (hsubset : ∀ place ∈ sites, place ∈ more) :
    emission.StandsIn ctx constUse more := by
  obtain ⟨place, hplace, hstatement, hshape⟩ := hstands
  exact ⟨place, hsubset place hplace, hstatement, hshape⟩

theorem shape_push {scope : Scope} {irScope : IrScope} (zoneName : Name)
    (hshape : shape irScope = shape scope) :
    shape irScope.push = shape (Scope.push scope zoneName) := by
  simpa [shape, IrScope.push, Scope.push, Frame.keys] using hshape

theorem shape_define {scope defined : Scope} {irScope : IrScope} {name : Name} {type : TypeRef}
    {isMutable : Bool} (hdefine : Scope.define scope name type isMutable = some defined)
    (hshape : shape irScope = shape scope) :
    shape (irScope.define name) = shape defined := by
  cases scope with
  | nil => simp [Scope.define] at hdefine
  | cons frame outer =>
      cases irScope with
      | nil => simp [shape] at hshape
      | cons irFrame irOuter =>
          simp only [Scope.define] at hdefine
          split at hdefine
          · simp at hdefine
          · simp only [Option.some.injEq] at hdefine
            rw [← hdefine]
            simpa [shape, IrScope.define, Chain.define] using hshape

section Sites

variable {ctx : Context} {constUse : ConstUse} {returnType : TypeRef}

theorem lowerDeferred_scopeAfter {scope : Scope} {deferred : Deferred} {statement : IrStmt}
    (hlowered : lowerDeferred ctx constUse scope deferred = some statement) (irScope : IrScope) :
    statement.scopeAfter irScope = irScope := by
  cases deferred with
  | expr value | free value =>
      simp only [lowerDeferred, Option.map_eq_some_iff] at hlowered
      obtain ⟨lowered, -, rfl⟩ := hlowered
      rfl

theorem emitEntry_scopeAfter {entry : DeferEntry} {statement : IrStmt}
    (hemit : emitEntry ctx constUse entry = some statement) (irScope : IrScope) :
    statement.scopeAfter irScope = irScope := by
  cases entry with
  | statement deferred scope => exact lowerDeferred_scopeAfter hemit irScope
  | zoneRelease zoneName =>
      simp only [emitEntry, Option.some.injEq] at hemit
      rw [← hemit]
      rfl

/-- Cleanup binds nothing, and every entry stands at its place. -/
theorem emitEntries_sites {entries : DeferFrame} {cleanup : List IrStmt}
    (hemit : emitEntries ctx constUse entries = some cleanup) (irScope : IrScope) :
    IrBlock.scopeAfter irScope cleanup = irScope ∧
      ∀ entry ∈ entries, ∃ place ∈ blockSites irScope cleanup,
        emitEntry ctx constUse entry = some place.2 ∧ place.1 = irScope := by
  induction entries generalizing cleanup with
  | nil =>
      simp only [emitEntries, Option.some.injEq] at hemit
      rw [← hemit]
      exact ⟨rfl, by simp⟩
  | cons entry rest ih =>
      simp only [emitEntries, Option.bind_eq_bind, Option.bind_eq_some_iff, Option.pure_def,
        Option.some.injEq] at hemit
      obtain ⟨first, hfirst, remaining, hremaining, rfl⟩ := hemit
      obtain ⟨hafter, hplaces⟩ := ih hremaining
      have hkeep := emitEntry_scopeAfter hfirst irScope
      refine ⟨by rw [IrBlock.scopeAfter, List.foldl_cons, hkeep]; exact hafter, ?_⟩
      intro other hother
      rcases List.mem_cons.mp hother with rfl | hother
      · exact ⟨(irScope, first), by simp [blockSites], hfirst, rfl⟩
      · obtain ⟨place, hplace, hstatement, hscope⟩ := hplaces other hother
        refine ⟨place, ?_, hstatement, hscope⟩
        simp only [blockSites, hkeep, List.mem_cons, List.mem_append]
        exact .inr (.inr hplace)

theorem emissionsAt_standIn {entries : DeferFrame} {cleanup : List IrStmt} {site : Scope}
    {irScope : IrScope} (hemit : emitEntries ctx constUse entries = some cleanup)
    (hshape : shape irScope = shape site) :
    ∀ emission ∈ emissionsAt site entries,
      emission.StandsIn ctx constUse (blockSites irScope cleanup) := by
  intro emission hemission
  obtain ⟨entry, hentry, rfl⟩ := List.mem_map.mp hemission
  obtain ⟨place, hplace, hstatement, hscope⟩ := (emitEntries_sites hemit irScope).2 entry hentry
  exact ⟨place, hplace, hstatement, by rw [hscope, hshape]⟩

/-- What the lowering of a block shares with the backend's scopes over its IR. -/
structure Placed (ctx : Context) (constUse : ConstUse) (irScope : IrScope)
    (lowered : Lowered (List IrStmt)) : Prop where
  after : shape (IrBlock.scopeAfter irScope lowered.value) = shape lowered.scope
  placed : ∀ emission ∈ lowered.emissions,
    emission.StandsIn ctx constUse (blockSites irScope lowered.value)

theorem lowerTry_placed {frames : List DeferFrame} {scope : Scope} {nextTemp : Nat} {name : Name}
    {initializer : Expr} {lowered : Lowered (List IrStmt)} {irScope : IrScope}
    (hshape : shape irScope = shape scope)
    (hlowered : lowerTry ctx constUse returnType frames scope nextTemp name initializer =
      some lowered) :
    Placed ctx constUse irScope lowered := by
  simp only [lowerTry, Option.bind_eq_bind, Option.bind_eq_some_iff] at hlowered
  obtain ⟨init, -, hlowered⟩ := hlowered
  split at hlowered
  · simp only [Option.bind_eq_some_iff, Option.pure_def, Option.some.injEq] at hlowered
    obtain ⟨withTemp, htemp, cleanup, hcleanup, defined, hdefined, rfl⟩ := hlowered
    have htempShape := shape_define htemp hshape
    refine ⟨shape_define hdefined htempShape, fun emission hemission => ?_⟩
    have hstands := emissionsAt_standIn hcleanup (shape_push "" htempShape) emission hemission
    refine hstands.mono fun place hplace => ?_
    simp only [blockSites, IrStmt.sites, elseSites, IrStmt.scopeAfter, blockSites_append,
      List.nil_append, List.append_nil, List.mem_cons, List.mem_append]
    exact .inr (.inr (.inl (.inl hplace)))
  · simp at hlowered

theorem lowerReturn_placed {frames : List DeferFrame} {scope : Scope} {nextTemp : Nat}
    {value : Option Expr} {lowered : Lowered (List IrStmt)} {irScope : IrScope}
    (hshape : shape irScope = shape scope)
    (hlowered : lowerReturn ctx constUse returnType frames scope nextTemp value = some lowered) :
    Placed ctx constUse irScope lowered := by
  simp only [lowerReturn, Option.bind_eq_bind, Option.bind_eq_some_iff, Option.pure_def,
    Option.some.injEq] at hlowered
  obtain ⟨cleanup, hcleanup, result, -, rfl⟩ := hlowered
  refine ⟨?_, fun emission hemission => ?_⟩
  · rw [IrBlock.scopeAfter, List.foldl_append]
    change shape (IrBlock.scopeAfter irScope cleanup) = _
    rw [(emitEntries_sites hcleanup irScope).1, hshape]
  · refine (emissionsAt_standIn hcleanup hshape emission hemission).mono fun place hplace => ?_
    rw [blockSites_append]
    exact List.mem_append_left _ hplace

theorem shape_pushBlock {scope : Scope} {irScope : IrScope}
    (hshape : shape irScope = shape scope) :
    shape irScope.push = shape (Scope.pushBlock scope) :=
  shape_push (Scope.zoneName scope) hshape

mutual

theorem lowerStatement_placed {frames : List DeferFrame} {scope : Scope} {nextTemp : Nat}
    {lowered : Lowered IrStmt} {irScope : IrScope} (hshape : shape irScope = shape scope) :
    (statement : Stmt) →
    lowerStatement ctx constUse returnType frames scope nextTemp statement = some lowered →
    shape (lowered.value.scopeAfter irScope) = shape lowered.scope ∧
      ∀ emission ∈ lowered.emissions,
        emission.StandsIn ctx constUse (lowered.value.sites irScope)
  | .letStmt name isMutable sourceType initializer, hlowered => by
      simp only [lowerStatement, Option.bind_eq_bind, Option.bind_eq_some_iff, Option.pure_def,
        Option.some.injEq] at hlowered
      obtain ⟨init, -, defined, hdefined, rfl⟩ := hlowered
      exact ⟨shape_define hdefined hshape, by simp⟩
  | .assign target value, hlowered => by
      simp only [lowerStatement, Option.bind_eq_bind, Option.bind_eq_some_iff, Option.pure_def,
        Option.some.injEq] at hlowered
      obtain ⟨first, -, second, -, rfl⟩ := hlowered
      exact ⟨hshape, by simp⟩
  | .expr value, hlowered => by
      simp only [lowerStatement, Option.bind_eq_bind, Option.bind_eq_some_iff, Option.pure_def,
        Option.some.injEq] at hlowered
      obtain ⟨first, -, rfl⟩ := hlowered
      exact ⟨hshape, by simp⟩
  | .free value, hlowered => by
      simp only [lowerStatement, Option.bind_eq_bind, Option.bind_eq_some_iff, Option.pure_def,
        Option.some.injEq] at hlowered
      obtain ⟨first, -, rfl⟩ := hlowered
      exact ⟨hshape, by simp⟩
  | .zone body, hlowered => by
      simp only [lowerStatement, Option.bind_eq_bind, Option.bind_eq_some_iff, Option.pure_def,
        Option.some.injEq] at hlowered
      obtain ⟨zoneScope, hzone, inner, hinner, rfl⟩ := hlowered
      have hzoneShape := shape_pushBlock (shape_define hzone (shape_push _ hshape))
      have hbody := lowerStatements_placed hzoneShape body hinner
      refine ⟨hshape, fun emission hemission => ?_⟩
      simp only [IrStmt.sites, blockSites_append]
      rcases List.mem_append.mp hemission with hinside | hrelease
      · exact (hbody.placed emission hinside).mono fun place hplace =>
          List.mem_append_left _ hplace
      · have hcleanup : emitEntries ctx constUse [.zoneRelease (generatedName "zone" nextTemp)] =
            some [zoneReleaseStmt (generatedName "zone" nextTemp)] := rfl
        have hstands := emissionsAt_standIn hcleanup hbody.after emission hrelease
        exact hstands.mono fun place hplace => List.mem_append_right _ hplace
  | .ifStmt condition thenBlock elseBlock, hlowered => by
      simp only [lowerStatement, Option.bind_eq_bind, Option.bind_eq_some_iff, Option.pure_def,
        Option.some.injEq] at hlowered
      obtain ⟨test, -, first, hfirst, second, hsecond, rfl⟩ := hlowered
      have hthen := lowerStatements_placed (shape_pushBlock hshape) thenBlock hfirst
      have helse := lowerElse_placed hshape elseBlock hsecond
      refine ⟨hshape, fun emission hemission => ?_⟩
      simp only [IrStmt.sites]
      rcases List.mem_append.mp hemission with hinThen | hinElse
      · exact (hthen.placed emission hinThen).mono fun place hplace =>
          List.mem_append_left _ hplace
      · exact (helse emission hinElse).mono fun place hplace => List.mem_append_right _ hplace
  | .whileStmt condition body, hlowered => by
      simp only [lowerStatement, Option.bind_eq_bind, Option.bind_eq_some_iff, Option.pure_def,
        Option.some.injEq] at hlowered
      obtain ⟨test, -, inner, hinner, rfl⟩ := hlowered
      exact ⟨hshape, (lowerStatements_placed (shape_pushBlock hshape) body hinner).placed⟩
  | .loop body, hlowered => by
      simp only [lowerStatement, Option.bind_eq_bind, Option.bind_eq_some_iff, Option.pure_def,
        Option.some.injEq] at hlowered
      obtain ⟨inner, hinner, rfl⟩ := hlowered
      exact ⟨hshape, (lowerStatements_placed (shape_pushBlock hshape) body hinner).placed⟩
  | .forStmt name sourceType start stop body, hlowered => by
      simp only [lowerStatement, Option.bind_eq_bind, Option.bind_eq_some_iff, Option.pure_def,
        Option.some.injEq] at hlowered
      obtain ⟨first, -, last, -, loopScope, hloop, inner, hinner, rfl⟩ := hlowered
      have hloopShape := shape_pushBlock (shape_define hloop (shape_push "" hshape))
      exact ⟨hshape, (lowerStatements_placed hloopShape body hinner).placed⟩

theorem lowerElse_placed {frames : List DeferFrame} {scope : Scope} {nextTemp : Nat}
    {lowered : Lowered (Option IrBlock)} {irScope : IrScope}
    (hshape : shape irScope = shape scope) :
    (elseBlock : Option (List Stmt)) →
    lowerElse ctx constUse returnType frames scope nextTemp elseBlock = some lowered →
    ∀ emission ∈ lowered.emissions,
      emission.StandsIn ctx constUse (elseSites irScope lowered.value)
  | none, hlowered => by
      simp only [lowerElse, Option.some.injEq] at hlowered
      subst hlowered
      simp
  | some block, hlowered => by
      simp only [lowerElse, Option.bind_eq_bind, Option.bind_eq_some_iff, Option.pure_def,
        Option.some.injEq] at hlowered
      obtain ⟨inner, hinner, rfl⟩ := hlowered
      exact (lowerStatements_placed (shape_pushBlock hshape) block hinner).placed

theorem lowerStatements_placed {outer : List DeferFrame} {scope : Scope} {nextTemp : Nat}
    {entries : DeferFrame} {lowered : Lowered (List IrStmt)} {irScope : IrScope}
    (hshape : shape irScope = shape scope) :
    (statements : List Stmt) →
    lowerStatements ctx constUse returnType outer scope nextTemp entries statements =
      some lowered →
    Placed ctx constUse irScope lowered
  | [], hlowered => by
      simp only [lowerStatements, Option.bind_eq_bind, Option.bind_eq_some_iff, Option.pure_def,
        Option.some.injEq] at hlowered
      obtain ⟨cleanup, hcleanup, rfl⟩ := hlowered
      exact ⟨by rw [(emitEntries_sites hcleanup irScope).1, hshape],
        emissionsAt_standIn hcleanup hshape⟩
  | statement :: rest, hlowered => by
      cases hplain : isPlain statement with
      | true =>
          simp only [lowerStatements_plain ctx constUse hplain, Option.bind_eq_bind,
            Option.bind_eq_some_iff, Option.pure_def, Option.some.injEq] at hlowered
          obtain ⟨first, hfirst, remaining, hremaining, rfl⟩ := hlowered
          obtain ⟨hafter, hplaced⟩ := lowerStatement_placed hshape statement hfirst
          have hrest := lowerStatements_placed hafter rest hremaining
          refine ⟨hrest.after, fun emission hemission => ?_⟩
          rcases List.mem_append.mp hemission with hhere | hlater
          · exact (hplaced emission hhere).mono fun place hplace =>
              List.mem_cons_of_mem _ (List.mem_append_left _ hplace)
          · exact (hrest.placed emission hlater).mono fun place hplace =>
              List.mem_cons_of_mem _ (List.mem_append_right _ hplace)
      | false =>
          cases statement with
          | defer deferred =>
              rw [lowerStatements] at hlowered
              exact lowerStatements_placed hshape rest hlowered
          | tryStmt name initializer =>
              simp only [lowerStatements, Option.bind_eq_bind, Option.bind_eq_some_iff,
                Option.pure_def, Option.some.injEq] at hlowered
              obtain ⟨first, hfirst, remaining, hremaining, rfl⟩ := hlowered
              have htry := lowerTry_placed hshape hfirst
              have hrest := lowerStatements_placed htry.after rest hremaining
              refine ⟨?_, fun emission hemission => ?_⟩
              · rw [IrBlock.scopeAfter, List.foldl_append]
                exact hrest.after
              · rw [blockSites_append]
                rcases List.mem_append.mp hemission with hhere | hlater
                · exact (htry.placed emission hhere).mono fun place hplace =>
                    List.mem_append_left _ hplace
                · exact (hrest.placed emission hlater).mono fun place hplace =>
                    List.mem_append_right _ hplace
          | returnStmt value =>
              rw [lowerStatements] at hlowered
              exact lowerReturn_placed hshape hlowered
          | _ => simp [isPlain] at hplain

end

end Sites

def paramScope (scope : IrScope) (parameters : List Param) : IrScope :=
  parameters.foldl (fun scope param => scope.define param.name) scope

theorem defineParams_shape {ctx : Context} {parameters : List Param} {scope defined : Scope}
    {irScope : IrScope} (hdefined : defineParams ctx scope parameters = some defined)
    (hshape : shape irScope = shape scope) :
    shape (paramScope irScope parameters) = shape defined := by
  induction parameters generalizing scope irScope with
  | nil =>
      simp only [defineParams, Option.some.injEq] at hdefined
      rw [← hdefined]
      exact hshape
  | cons param rest ih =>
      simp only [defineParams, Option.bind_eq_bind, Option.bind_eq_some_iff] at hdefined
      obtain ⟨next, hnext, hdefined⟩ := hdefined
      exact ih hdefined (shape_define hnext hshape)

theorem defineParams_names {ctx : Context} {parameters : List Param} {scope defined : Scope}
    (hdefined : defineParams ctx scope parameters = some defined) :
    names defined = (parameters.map (·.name)).reverse ++ names scope := by
  induction parameters generalizing scope with
  | nil =>
      simp only [defineParams, Option.some.injEq] at hdefined
      rw [← hdefined]
      rfl
  | cons param rest ih =>
      simp only [defineParams, Option.bind_eq_bind, Option.bind_eq_some_iff] at hdefined
      obtain ⟨next, hnext, hdefined⟩ := hdefined
      rw [ih hdefined, (define_eq_some hnext).names_eq]
      simp

theorem defineParams_zone {ctx : Context} {parameters : List Param} {scope defined : Scope}
    (hdefined : defineParams ctx scope parameters = some defined) :
    Scope.currentZoneName defined = Scope.currentZoneName scope := by
  induction parameters generalizing scope with
  | nil =>
      simp only [defineParams, Option.some.injEq] at hdefined
      rw [← hdefined]
  | cons param rest ih =>
      simp only [defineParams, Option.bind_eq_bind, Option.bind_eq_some_iff] at hdefined
      obtain ⟨next, hnext, hdefined⟩ := hdefined
      rw [ih hdefined, currentZoneName_define hnext]

/-- The cleanup statement stands in the IR where each of its locals is the
binding it was at the `defer`. -/
def Emission.HygienicIn (ctx : Context) (sites : List (IrScope × IrStmt))
    (emission : Emission) : Prop :=
  ∃ place ∈ sites, emitEntry ctx ctx.constUse emission.entry = some place.2 ∧
    shape place.1 = shape emission.site ∧
    match emission.entry with
    | .zoneRelease _ => True
    | .statement deferred scope =>
        ∀ name ∈ deferredNames ctx [Scope.currentZoneName scope] deferred, ∀ binding,
          Chain.resolve scope name = some binding → Chain.resolve place.1 name = some binding

theorem Emission.StandsIn.hygienicIn_iff {ctx : Context} {sites : List (IrScope × IrStmt)}
    {emission : Emission} (hstands : emission.StandsIn ctx ctx.constUse sites) :
    emission.HygienicIn ctx sites ↔ emission.Hygienic ctx := by
  obtain ⟨entry, site⟩ := emission
  obtain ⟨place, hplace, hstatement, hshape⟩ := hstands
  cases entry with
  | zoneRelease zoneName =>
      exact ⟨fun _ => trivial, fun _ => ⟨place, hplace, hstatement, hshape, trivial⟩⟩
  | statement deferred scope =>
      constructor
      · rintro ⟨other, -, -, hother, hkept⟩ name hname binding hresolve
        rw [← Chain.resolve_eq_of_shape_eq hother]
        exact hkept name hname binding hresolve
      · intro hkept
        refine ⟨place, hplace, hstatement, hshape, fun name hname binding hresolve => ?_⟩
        rw [Chain.resolve_eq_of_shape_eq hshape]
        exact hkept name hname binding hresolve

/-- Deferred statements act on the bindings captured at their `defer` exactly
when no exit comes after one of their locals was bound again. -/
theorem cleanup_hygienic_iff {ctx : Context} {function : FunctionDecl} {nextTemp : Nat}
    {body : Block} {lowered : Lowered IrBlock}
    (hlowered : lowerBody ctx function nextTemp body = some lowered) :
    (∀ emission ∈ lowered.emissions, emission.HygienicIn ctx
      (blockSites (paramScope (IrScope.push []) function.parameters) lowered.value)) ↔
      keepsDeferredNames ctx function nextTemp body = true := by
  simp only [lowerBody, Option.bind_eq_bind, Option.bind_eq_some_iff] at hlowered
  obtain ⟨root, hroot, hlowered⟩ := hlowered
  have hshape : shape (paramScope (IrScope.push []) function.parameters) = shape root :=
    defineParams_shape hroot rfl
  have hplaced := lowerStatements_placed hshape body hlowered
  have hfollows := lowerStatements_follows (by simp) body hlowered
  rw [defineParams_names hroot, defineParams_zone hroot] at hfollows
  rw [← forall₂_congr fun emission hemission =>
    (hplaced.placed emission hemission).hygienicIn_iff.symm, hfollows.hygienic]
  simp [keepsDeferredNames, pendings, Scope.push, Scope.currentZoneName, names, shape, Frame.keys]

def mainContext (body : Block) : Context :=
  ⟨mainProject body, 0⟩

/-- A deferred `free p` and a `return` in a block that binds `inner`. -/
def deferringBody (inner : Name) : Block := [
  .letStmt "p" false (.ptr .int) (.alloc .int),
  .defer (.free (.name "p")),
  .ifStmt (.bool true) [
    .letStmt inner false (.ptr .int) (.alloc .int),
    .returnStmt (some (.int 0))] none,
  .returnStmt (some (.int 0))]

theorem cleanup_of_shadowed_local :
    Accepted (mainContext (deferringBody "p")).project ∧
      ∃ lowered, lowerBody (mainContext (deferringBody "p")) (mainFunction (deferringBody "p")) 0
          (deferringBody "p") = some lowered ∧
        ¬ ∀ emission ∈ lowered.emissions, emission.HygienicIn (mainContext (deferringBody "p"))
          (blockSites (paramScope (IrScope.push []) []) lowered.value) := by
  refine ⟨by decide, _, rfl, fun hhygienic => ?_⟩
  obtain ⟨place, -, -, hshape, hkept⟩ := hhygienic _ (.head _)
  have hresolved := hkept "p" (.head _) _ rfl
  rw [Chain.resolve_eq_of_shape_eq hshape] at hresolved
  exact absurd hresolved (by decide)

theorem cleanup_of_distinct_local :
    ∃ lowered, lowerBody (mainContext (deferringBody "q")) (mainFunction (deferringBody "q")) 0
        (deferringBody "q") = some lowered ∧
      ∀ emission ∈ lowered.emissions, emission.HygienicIn (mainContext (deferringBody "q"))
        (blockSites (paramScope (IrScope.push []) []) lowered.value) := by
  obtain ⟨lowered, hlowered⟩ := Option.isSome_iff_exists.mp
    (show (lowerBody (mainContext (deferringBody "q")) (mainFunction (deferringBody "q")) 0
      (deferringBody "q")).isSome by decide)
  exact ⟨lowered, hlowered, (cleanup_hygienic_iff hlowered).mpr (by decide)⟩

end Lower

end Cnegative
