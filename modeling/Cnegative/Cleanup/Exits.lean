import Cnegative.Cleanup.Mentions
import Cnegative.Cleanup.Paths

namespace Cnegative

namespace Cleanup

open Library (Exit Paths)
open Library.Paths
open Lower

/-! The lowered body cleans what the source owes, at every exit. -/

/-! Whether a generated zone name still means its zone where the zone is released, and nothing
else reads it. -/

/-- What a scope owes, as the source tells it: a zone by its generated name and by the number
of names in scope once it is entered. -/
inductive Owed where
  | deferred (statement : Deferred)
  | zone (name : Name) (depth : Nat)

def zonesOf : List Owed → List (Name × Nat)
  | [] => []
  | .deferred _ :: rest => zonesOf rest
  | .zone name depth :: rest => (name, depth) :: zonesOf rest

theorem zonesOf_append (first second : List Owed) :
    zonesOf (first ++ second) = zonesOf first ++ zonesOf second := by
  induction first with
  | nil => rfl
  | cons owed rest ih =>
      cases owed with
      | deferred statement => exact ih
      | zone name depth => exact congrArg ((name, depth) :: ·) ih

/-- The name was not bound again. -/
def meansZone (bound : List Name) (zone : Name × Nat) : Bool :=
  !(bound.take (bound.length - zone.2)).contains zone.1

/-- Where names that are read count, none of them means a zone. -/
def avoids (reads : Bool) (owed : List Owed) (bound names : List Name) : Bool :=
  !reads || (zonesOf owed).all fun zone => !(names.contains zone.1 && meansZone bound zone)

def Owed.heldAt (ctx : Context) (reads : Bool) (outer : List Owed) (bound : List Name) :
    Owed → Bool
  | .deferred statement => avoids reads outer bound (deferredNames ctx [] statement)
  | .zone name depth => meansZone bound (name, depth)

mutual

/-- Whether the statement, and every exit inside it, keeps the names of the zones around; the
names that are read count if `reads` is set. -/
def zoneWalkStmt (ctx : Context) (reads : Bool) (owed : List Owed) (bound : List Name)
    (nextTemp : Nat) :
    Stmt → Walk
  | .letStmt name _ _ initializer =>
      ⟨avoids reads owed bound (exprNames ctx [] initializer), name :: bound, nextTemp⟩
  | .assign target value =>
      ⟨avoids reads owed bound (exprNames ctx [] target ++ exprNames ctx [] value), bound, nextTemp⟩
  | .expr value | .free value => ⟨avoids reads owed bound (exprNames ctx [] value), bound, nextTemp⟩
  | .zone body =>
      let name := generatedName "zone" nextTemp
      let inner :=
        zoneWalkBlock ctx reads (.zone name (bound.length + 1) :: owed) [] (name :: bound)
        (nextTemp + 1) body
      ⟨inner.kept && meansZone inner.bound (name, bound.length + 1), bound, inner.nextTemp⟩
  | .ifStmt condition thenBlock elseBlock =>
      let first := zoneWalkBlock ctx reads owed [] bound nextTemp thenBlock
      let second := zoneWalkElse ctx reads owed bound first.nextTemp elseBlock
      ⟨avoids reads owed bound (exprNames ctx [] condition) && (first.kept && second.kept), bound,
        second.nextTemp⟩
  | .whileStmt condition body =>
      let inner := zoneWalkBlock ctx reads owed [] bound nextTemp body
      ⟨avoids reads owed bound (exprNames ctx [] condition) && inner.kept, bound, inner.nextTemp⟩
  | .loop body =>
      let inner := zoneWalkBlock ctx reads owed [] bound nextTemp body
      ⟨inner.kept, bound, inner.nextTemp⟩
  | .forStmt name _ start stop body =>
      let inner := zoneWalkBlock ctx reads owed [] (name :: bound) nextTemp body
      ⟨avoids reads owed bound (exprNames ctx [] start ++ exprNames ctx [] stop) && inner.kept,
        bound,
        inner.nextTemp⟩
  | _ => ⟨true, bound, nextTemp⟩

def zoneWalkElse (ctx : Context) (reads : Bool) (owed : List Owed) (bound : List Name)
    (nextTemp : Nat) :
    Option (List Stmt) → Walk
  | none => ⟨true, bound, nextTemp⟩
  | some block =>
      let inner := zoneWalkBlock ctx reads owed [] bound nextTemp block
      ⟨inner.kept, bound, inner.nextTemp⟩

/-- `own` are the deferred statements of the block itself. -/
def zoneWalkBlock (ctx : Context) (reads : Bool) (outer own : List Owed) (bound : List Name)
    (nextTemp : Nat) :
    List Stmt → Walk
  | [] => ⟨own.all (Owed.heldAt ctx reads outer bound), bound, nextTemp⟩
  | .defer statement :: rest =>
      zoneWalkBlock ctx reads outer (.deferred statement :: own) bound nextTemp rest
  | .tryStmt name initializer :: rest =>
      let temp := generatedName "try" nextTemp
      let remaining := zoneWalkBlock ctx reads outer own (name :: temp :: bound) (nextTemp + 1) rest
      ⟨avoids reads outer bound (exprNames ctx [] initializer) &&
          ((own ++ outer).all (Owed.heldAt ctx reads outer (temp :: bound)) && remaining.kept),
        remaining.bound, remaining.nextTemp⟩
  | .returnStmt value :: _ =>
      ⟨avoids reads outer bound (boundNames ctx [] value) &&
        (own ++ outer).all (Owed.heldAt ctx reads outer bound), bound, nextTemp⟩
  | statement :: rest =>
      let first := zoneWalkStmt ctx reads (own ++ outer) bound nextTemp statement
      let remaining := zoneWalkBlock ctx reads outer own first.bound first.nextTemp rest
      ⟨first.kept && remaining.kept, remaining.bound, remaining.nextTemp⟩

end

theorem zoneWalkBlock_plain {ctx : Context} {reads : Bool} {outer own : List Owed}
    {bound : List Name}
    {nextTemp : Nat} {statement : Stmt} (hplain : isPlain statement = true) (rest : List Stmt) :
    zoneWalkBlock ctx reads outer own bound nextTemp (statement :: rest) =
      let first := zoneWalkStmt ctx reads (own ++ outer) bound nextTemp statement
      let remaining := zoneWalkBlock ctx reads outer own first.bound first.nextTemp rest
      ⟨first.kept && remaining.kept, remaining.bound, remaining.nextTemp⟩ := by
  cases statement with
  | defer _ | tryStmt _ _ | returnStmt _ => simp [isPlain] at hplain
  | _ => rfl

def isRelease : IrStmt → Bool
  | .expr (.call _ .builtin moduleName functionName [.local _ _]) =>
      moduleName = "" && functionName = "__zone_release"
  | _ => false

def mentionsZone (env : ZoneEnv) (names : List Name) : Bool :=
  names.any fun name => (env.lookup name).join.isSome

mutual

def stmtUntouched (env : ZoneEnv) : IrStmt → Bool
  | .letStmt _ _ _ value | .expr value | .free value => !mentionsZone env value.localReads
  | .assign target value => !mentionsZone env (target.localReads ++ value.localReads)
  | .returnStmt value => !mentionsZone env (boundLocalReads value)
  | .zone zoneName body => blockUntouched ((zoneName, some 0) :: env) body
  | .ifStmt condition thenBlock elseBlock =>
      !mentionsZone env condition.localReads &&
        (blockUntouched env thenBlock && elseUntouched env elseBlock)
  | .whileStmt condition body =>
      !mentionsZone env condition.localReads && blockUntouched env body
  | .loop body => blockUntouched env body
  | .forStmt name _ start stop body =>
      !mentionsZone env (start.localReads ++ stop.localReads) &&
        blockUntouched ((name, none) :: env) body

def elseUntouched (env : ZoneEnv) : Option (List IrStmt) → Bool
  | none => true
  | some block => blockUntouched env block

def blockUntouched (env : ZoneEnv) : List IrStmt → Bool
  | [] => true
  | statement :: rest =>
      (isRelease statement || stmtUntouched env statement) &&
        blockUntouched (envAfter env statement) rest

end

theorem blockUntouched_append (env : ZoneEnv) (first second : IrBlock) :
    blockUntouched env (first ++ second) =
      (blockUntouched env first && blockUntouched (blockEnvAfter env first) second) := by
  induction first generalizing env with
  | nil => rfl
  | cons statement rest ih =>
      rw [List.cons_append, blockUntouched, ih, blockUntouched, Bool.and_assoc]
      rfl

/-- The zones in scope are the ones that are owed. -/
def Zoned (env : ZoneEnv) (owed : List Owed) : Prop :=
  ∀ added before name number, env = added ++ (name, some number) :: before →
    (name, before.length + 1) ∈ zonesOf owed

theorem Zoned.bind {env : ZoneEnv} {owed : List Owed} (hzoned : Zoned env owed) (name : Name) :
    Zoned ((name, none) :: env) owed := by
  intro added before other number henv
  cases added with
  | nil => cases henv
  | cons entry added => exact hzoned added before other number (List.tail_eq_of_cons_eq henv)

theorem Zoned.enter {env : ZoneEnv} {owed : List Owed} (hzoned : Zoned env owed) (name : Name)
    (number : Nat) : Zoned ((name, some number) :: env) (.zone name (env.length + 1) :: owed) := by
  intro added before other index henv
  cases added with
  | nil =>
      cases henv
      exact List.mem_cons_self
  | cons entry added =>
      exact List.mem_cons_of_mem _
        (hzoned added before other index (List.tail_eq_of_cons_eq henv))

theorem meansZone_iff {added before : ZoneEnv} {zoneName : Name} {number : Option Nat} :
    meansZone ((added ++ (zoneName, number) :: before).map Prod.fst)
      (zoneName, before.length + 1) = true ↔ zoneName ∉ added.map Prod.fst := by
  have hlength : ((added ++ (zoneName, number) :: before).map Prod.fst).length -
      (before.length + 1) = (added.map Prod.fst).length := by
    simp only [List.length_map, List.length_append, List.length_cons]
    omega
  unfold meansZone
  rw [hlength, List.map_append, List.take_left]
  simp

/-- Names of which none means a zone read no handle. -/
theorem mentionsZone_of_avoids {env : ZoneEnv} {owed : List Owed} {names locals : List Name}
    (hzoned : Zoned env owed) (havoids : avoids true owed (env.map Prod.fst) names = true)
    (hlocals : ∀ name ∈ locals, name ∈ names) : (!mentionsZone env locals) = true := by
  rw [Bool.not_eq_true', mentionsZone, List.any_eq_false]
  intro name hname hzone
  obtain ⟨number, hlookup⟩ : ∃ number, env.lookup name = some (some number) := by
    cases hfound : env.lookup name with
    | none => rw [hfound] at hzone; cases hzone
    | some number =>
        cases number with
        | none => rw [hfound] at hzone; cases hzone
        | some number => exact ⟨number, rfl⟩
  obtain ⟨added, before, rfl, hfresh⟩ := List.lookup_eq_some_iff.mp hlookup
  have hmem := hzoned added before name number rfl
  have hmeans := List.all_eq_true.mp havoids _ hmem
  have hkept : meansZone ((added ++ (name, some number) :: before).map Prod.fst)
      (name, before.length + 1) = true := by
    rw [meansZone_iff]
    intro hadded
    obtain ⟨entry, hentry, rfl⟩ := List.mem_map.mp hadded
    simpa using hfresh entry hentry
  rw [hkept] at hmeans
  simp [hlocals name hname] at hmeans

/-! What a path through the IR shows of a path through the source. -/

inductive Lowers (ctx : Context) (constUse : ConstUse) : Stmt → IrStmt → Prop
  | plain {returnType : TypeRef} {frames : List DeferFrame} {scope : Scope} {nextTemp : Nat}
      {statement : Stmt} {lowered : Lowered IrStmt} :
      lowerStatement ctx constUse returnType frames scope nextTemp statement = some lowered →
        Lowers ctx constUse statement lowered.value
  | tryStmt {scope : Scope} {name tempName : Name} {initializer : Expr} {lowered : IrExpr} :
      lowerExpr ctx constUse scope none initializer = some lowered →
        Lowers ctx constUse (.tryStmt name initializer)
          (.letStmt tempName false lowered.type lowered)

inductive Shows (ctx : Context) (constUse : ConstUse) : List Act → List Event → Prop
  | nil : Shows ctx constUse [] []
  | registered {statement : Deferred} {acts : List Act} {events : List Event} :
      Shows ctx constUse acts events → Shows ctx constUse (.registered statement :: acts) events
  | entered {zone : Nat} {acts : List Act} {events : List Event} :
      Shows ctx constUse acts events →
        Shows ctx constUse (.entered zone :: acts) (.entered zone :: events)
  | ran {statement : Stmt} {lowered : IrStmt} {zone : Option Nat} {acts : List Act}
      {events : List Event} :
      Lowers ctx constUse statement lowered → Shows ctx constUse acts events →
        Shows ctx constUse (.ran statement :: acts) (.ran lowered zone :: events)
  | bound {name : Name} {type : TypeRef} {value : IrExpr} {acts : List Act}
      {events : List Event} :
      Shows ctx constUse acts events →
        Shows ctx constUse (.bound name :: acts)
          (.ran (.letStmt name false type value) none :: events)
  | deferred {statement : Deferred} {scope : Scope} {lowered : IrStmt} {zone : Option Nat}
      {acts : List Act} {events : List Event} :
      lowerDeferred ctx constUse (captureScope scope) statement = some lowered →
        Shows ctx constUse acts events →
        Shows ctx constUse (.cleaned (.deferred statement) :: acts) (.ran lowered zone :: events)
  | released {zone : Nat} {zoneName : Name} {acts : List Act} {events : List Event} :
      Shows ctx constUse acts events →
        Shows ctx constUse (.cleaned (.zone zone) :: acts)
          (.ran (zoneReleaseStmt zoneName) (some zone) :: events)

variable {ctx : Context} {constUse : ConstUse}

theorem Shows.append {acts more : List Act} {events late : List Event}
    (hfirst : Shows ctx constUse acts events) (hsecond : Shows ctx constUse more late) :
    Shows ctx constUse (acts ++ more) (events ++ late) := by
  induction hfirst with
  | nil => exact hsecond
  | registered _ ih => exact .registered ih
  | entered _ ih => exact .entered ih
  | ran hlowers _ ih => exact .ran hlowers ih
  | bound _ ih => exact .bound ih
  | deferred hlowered _ ih => exact .deferred hlowered ih
  | released _ ih => exact .released ih

/-- A path that returns shows what the scopes around it owe, too. -/
def Ends (ctx : Context) (constUse : ConstUse) (outer : List Due) (exit : Exit) (acts : List Act)
    (events : List Event) : Prop :=
  Shows ctx constUse (acts ++ onReturn outer exit) events

theorem composes_ends (outer : List Due) : Composes (Ends ctx constUse outer) where
  nil := .nil
  append := by
    intro exit acts more events late hfirst hsecond
    unfold Ends at *
    rw [onReturn, List.append_nil] at hfirst
    rw [List.append_assoc]
    exact hfirst.append hsecond

theorem simulates_leaving {own outer : List Due} {source : Paths Nat Act}
    {target : Paths Nat Event}
    (hsimulates : Simulates (Ends ctx constUse (own ++ outer)) source target) :
    Simulates (Ends ctx constUse outer) (leaving own source) target := by
  intro before events exit after hpath
  obtain ⟨acts, hacts, hshows⟩ := hsimulates _ _ _ _ hpath
  refine ⟨acts ++ onReturn own exit, ⟨acts, hacts, rfl⟩, ?_⟩
  unfold Ends at *
  cases exit with
  | next => simpa only [onReturn, List.append_nil] using hshows
  | returned =>
      simpa only [onReturn, closing, List.map_append, List.append_assoc] using hshows

/-! Paths through IR blocks. -/

theorem blockPaths_append {env : ZoneEnv} {first second : IrBlock} {before after : Nat}
    {events : List Event} {exit : Exit}
    (hpath : blockPaths env (first ++ second) before events exit after) :
    Seq (blockPaths env first) (blockPaths (blockEnvAfter env first) second) before events exit
      after := by
  induction first generalizing env before events with
  | nil =>
      have hskip : blockPaths env [] before [] .next before := ⟨rfl, rfl, rfl⟩
      exact Seq.next hskip hpath
  | cons statement rest ih =>
      cases hpath with
      | returned hreturned => exact .returned (.returned hreturned)
      | next hearly hlate =>
          cases ih hlate with
          | returned hreturned => exact .returned (.next hearly hreturned)
          | next hmiddle hlast =>
              rw [← List.append_assoc]
              exact .next (.next hearly hmiddle) hlast

/-! What the scopes owe, as the lowering keeps it. -/

/-- The entries of the lowering, the dues of the run, and what the walk knows of them. -/
inductive Stands (env : ZoneEnv) : DeferFrame → List Due → List Owed → Prop
  | nil : Stands env [] [] []
  | deferred {statement : Deferred} {scope : Scope} {entries : DeferFrame} {dues : List Due}
      {owed : List Owed} :
      Stands env entries dues owed →
        Stands env (.statement statement scope :: entries) (.deferred statement :: dues)
          (.deferred statement :: owed)
  | zone {zoneName : Name} {number : Nat} {added before : ZoneEnv} {entries : DeferFrame}
      {dues : List Due} {owed : List Owed} :
      env = added ++ (zoneName, some number) :: before → Stands env entries dues owed →
        Stands env (.zoneRelease zoneName :: entries) (.zone number :: dues)
          (.zone zoneName (before.length + 1) :: owed)

theorem Stands.extend {env : ZoneEnv} {entries : DeferFrame} {dues : List Due}
    {owed : List Owed} (hstands : Stands env entries dues owed) (added : ZoneEnv) :
    Stands (added ++ env) entries dues owed := by
  induction hstands with
  | nil => exact .nil
  | deferred _ ih => exact .deferred ih
  | zone henv _ ih =>
      subst henv
      exact .zone (List.append_assoc ..).symm ih

theorem Stands.append {env : ZoneEnv} {entries more : DeferFrame} {dues others : List Due}
    {owed rest : List Owed} (hfirst : Stands env entries dues owed)
    (hsecond : Stands env more others rest) :
    Stands env (entries ++ more) (dues ++ others) (owed ++ rest) := by
  induction hfirst with
  | nil => exact hsecond
  | deferred _ ih => exact .deferred ih
  | zone henv _ ih => exact .zone henv ih

theorem lookup_of_meansZone {added before : ZoneEnv} {zoneName : Name} {number : Option Nat}
    (hmeans : meansZone ((added ++ (zoneName, number) :: before).map Prod.fst)
      (zoneName, before.length + 1) = true) :
    (added ++ (zoneName, number) :: before).lookup zoneName = some number := by
  have hfresh : added.lookup zoneName = none := by
    rw [List.lookup_eq_none_iff]
    intro entry hentry
    have hne := meansZone_iff.mp hmeans
    rw [bne_iff_ne]
    rintro rfl
    exact hne (List.mem_map_of_mem hentry)
  rw [List.lookup_append, hfresh, List.lookup_cons_self]
  rfl

theorem lowerDeferred_paths {scope : Scope} {statement : Deferred} {lowered : IrStmt}
    (hlowered : lowerDeferred ctx constUse scope statement = some lowered) (env : ZoneEnv) :
    stmtPaths env lowered = step (.ran lowered (releasedZone env lowered)) ∧
      envAfter env lowered = env := by
  cases statement with
  | expr value | free value =>
      simp only [lowerDeferred, Option.map_eq_some_iff] at hlowered
      obtain ⟨result, -, rfl⟩ := hlowered
      exact ⟨rfl, rfl⟩

theorem lowerDeferred_untouched (hconst : Closed constUse) {scope : Scope} {statement : Deferred}
    {lowered : IrStmt} (hlowered : lowerDeferred ctx constUse scope statement = some lowered)
    {env : ZoneEnv} {outer : List Owed} (hzoned : Zoned env outer)
    (havoids : avoids true outer (env.map Prod.fst) (deferredNames ctx [] statement) = true) :
    stmtUntouched env lowered = true := by
  cases statement with
  | expr value | free value =>
      simp only [lowerDeferred, Option.map_eq_some_iff] at hlowered
      obtain ⟨result, hresult, rfl⟩ := hlowered
      exact mentionsZone_of_avoids hzoned havoids fun name hname =>
        (reads_lowerExpr hconst value _ _ hresult name hname).1

theorem releasedZone_of_meansZone {added before : ZoneEnv} {zoneName : Name} {number : Nat}
    (hmeans : meansZone ((added ++ (zoneName, some number) :: before).map Prod.fst)
      (zoneName, before.length + 1) = true) :
    releasedZone (added ++ (zoneName, some number) :: before) (zoneReleaseStmt zoneName) =
      some number := by
  change (List.lookup zoneName _).join = _
  rw [lookup_of_meansZone hmeans]
  rfl

/-- The cleanup of an exit binds nothing, runs what is owed, and touches no handle else. -/
structure Cleans (ctx : Context) (constUse : ConstUse) (reads : Bool) (env : ZoneEnv)
    (dues : List Due) (cleanup : List IrStmt) : Prop where
  shown : ∀ before events exit after, blockPaths env cleanup before events exit after →
    exit = .next ∧ after = before ∧ Shows ctx constUse (closing dues) events
  untouched : reads = true → blockUntouched env cleanup = true

theorem cleanup_envAfter {entries : DeferFrame} {cleanup : List IrStmt}
    (hemit : emitEntries ctx constUse entries = some cleanup) (env : ZoneEnv) :
    blockEnvAfter env cleanup = env := by
  induction entries generalizing cleanup with
  | nil =>
      obtain rfl := Option.some.inj hemit
      rfl
  | cons entry rest ih =>
      simp only [emitEntries, Option.bind_eq_bind, Option.bind_eq_some_iff, Option.pure_def,
        Option.some.injEq] at hemit
      obtain ⟨first, hfirst, remaining, hremaining, rfl⟩ := hemit
      have hkeep : envAfter env first = env := by
        cases entry with
        | statement deferred scope => exact (lowerDeferred_paths hfirst env).2
        | zoneRelease zoneName =>
            obtain rfl := Option.some.inj hfirst
            rfl
      rw [blockEnvAfter, List.foldl_cons, hkeep]
      exact ih hremaining

theorem cleans_of_held (hconst : Closed constUse) {reads : Bool} {env : ZoneEnv}
    {entries : DeferFrame} {dues : List Due} {owed outer : List Owed} {cleanup : List IrStmt}
    (hstands : Stands env entries dues owed) (hzoned : Zoned env outer)
    (hemit : emitEntries ctx constUse entries = some cleanup)
    (hheld : owed.all (Owed.heldAt ctx reads outer (env.map Prod.fst)) = true) :
    Cleans ctx constUse reads env dues cleanup := by
  induction hstands generalizing cleanup with
  | nil =>
      obtain rfl := Option.some.inj hemit
      refine ⟨?_, fun _ => rfl⟩
      rintro before events exit after ⟨rfl, rfl, rfl⟩
      exact ⟨rfl, rfl, .nil⟩
  | deferred _ ih =>
      simp only [emitEntries, Option.bind_eq_bind, Option.bind_eq_some_iff, Option.pure_def,
        Option.some.injEq] at hemit
      obtain ⟨first, hfirst, remaining, hremaining, rfl⟩ := hemit
      rw [List.all_cons, Bool.and_eq_true] at hheld
      obtain ⟨hpaths, hafter⟩ := lowerDeferred_paths hfirst env
      have hrest := ih hremaining hheld.2
      refine ⟨?_, ?_⟩
      · intro before events exit after hpath
        rw [blockPaths, hpaths, hafter] at hpath
        cases hpath with
        | returned hreturned => cases hreturned.2.1
        | next hearly hlate =>
            obtain ⟨rfl, -, rfl⟩ := hearly
            obtain ⟨hexit, hsame, hshows⟩ := hrest.shown _ _ _ _ hlate
            exact ⟨hexit, hsame, .deferred hfirst hshows⟩
      · rintro rfl
        rw [blockUntouched, hafter, hrest.untouched rfl, Bool.and_true,
          lowerDeferred_untouched hconst hfirst hzoned hheld.1, Bool.or_true]
  | zone hin _ ih =>
      simp only [emitEntries, emitEntry, Option.bind_eq_bind, Option.bind_eq_some_iff,
        Option.pure_def, Option.some.injEq] at hemit
      obtain ⟨first, rfl, remaining, hremaining, rfl⟩ := hemit
      rw [List.all_cons, Bool.and_eq_true] at hheld
      have hrest := ih hremaining hheld.2
      refine ⟨?_, ?_⟩
      · intro before events exit after hpath
        cases hpath with
        | returned hreturned => cases hreturned.2.1
        | next hearly hlate =>
            obtain ⟨rfl, -, rfl⟩ := hearly
            obtain ⟨hexit, hsame, hshows⟩ := hrest.shown _ _ _ _ hlate
            subst hin
            refine ⟨hexit, hsame, ?_⟩
            rw [releasedZone_of_meansZone hheld.1]
            exact .released hshows
      · exact hrest.untouched

/-- An exit by a return. -/
theorem Cleans.returned {reads : Bool} {env : ZoneEnv} {dues : List Due} {cleanup : List IrStmt}
    (hcleans : Cleans ctx constUse reads env dues cleanup) (value : Option IrExpr)
    {before after : Nat} {events : List Event} {exit : Exit}
    (hpath : blockPaths env (cleanup ++ [.returnStmt value]) before events exit after) :
    exit = .returned ∧ after = before ∧ Shows ctx constUse (closing dues) events := by
  cases blockPaths_append hpath with
  | returned hreturned =>
      obtain ⟨hexit, -⟩ := hcleans.shown _ _ _ _ hreturned
      cases hexit
  | next hearly hlate =>
      obtain ⟨-, rfl, hshows⟩ := hcleans.shown _ _ _ _ hearly
      cases hlate with
      | returned hreturned =>
          obtain ⟨rfl, -, rfl⟩ := hreturned
          rw [List.append_nil]
          exact ⟨rfl, rfl, hshows⟩
      | next hreturn _ => cases hreturn.2.1

end Cleanup

end Cnegative
