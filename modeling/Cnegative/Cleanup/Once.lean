import Cnegative.Cleanup.Exits
import Cnegative.Cleanup.Follows

namespace Cnegative

namespace Cleanup

open Library (Exit Paths)
open Library.Paths
open Lower
open Check (Accepted)

/-! The lowering, one statement after another. -/

/-- What the lowering of a statement or a block shares with the walk over it and with the
paths of the source. -/
structure Walked (ctx : Context) (constUse : ConstUse) (reads : Bool) (env after : ZoneEnv)
    (nextTemp : Nat) (walk : Walk) (outer : List Due) (source : Paths Nat Act)
    (target : Paths Nat Event) (untouched : Bool) : Prop where
  bound : walk.bound = after.map Prod.fst
  nextTemp_eq : walk.nextTemp = nextTemp
  extended : ∃ added, after = added ++ env
  simulates : walk.kept = true → Simulates (Ends ctx constUse outer) source target
  untouched_eq : reads = true → walk.kept = true → untouched = true

section Walk

variable {ctx : Context} {constUse : ConstUse} {returnType : TypeRef} {reads : Bool}

theorem Walked.of_step {env after : ZoneEnv} {nextTemp : Nat} {bound : List Name} {kept : Bool}
    {outer : List Due} {statement : Stmt} {lowered : IrStmt} {zone : Option Nat}
    {untouched : Bool} (hbound : bound = after.map Prod.fst)
    (hextended : ∃ added, after = added ++ env) (hlowers : Lowers ctx constUse statement lowered)
    (huntouched : reads = true → kept = true → untouched = true) :
    Walked ctx constUse reads env after nextTemp ⟨kept, bound, nextTemp⟩ outer
      (step (.ran statement)) (step (.ran lowered zone)) untouched :=
  ⟨hbound, rfl, hextended, fun _ => .step (.ran hlowers .nil), huntouched⟩

/-- The locals of a lowered expression are names of the source. -/
theorem mentions_lowerExpr (hconst : Closed constUse) {scope : Scope}
    {expected : Option TypeRef} {expression : Expr} {lowered : IrExpr}
    (hlowered : lowerExpr ctx constUse scope expected expression = some lowered) :
    ∀ name ∈ lowered.localReads, name ∈ exprNames ctx [] expression :=
  fun name hname => (reads_lowerExpr hconst expression _ _ hlowered name hname).1

theorem mentions_append {names more locals others : List Name}
    (hfirst : ∀ name ∈ locals, name ∈ names) (hsecond : ∀ name ∈ others, name ∈ more) :
    ∀ name ∈ locals ++ others, name ∈ names ++ more := by
  intro name hname
  rcases List.mem_append.mp hname with hname | hname
  · exact List.mem_append_left _ (hfirst name hname)
  · exact List.mem_append_right _ (hsecond name hname)

/-- The cleanup behind the last statement of a block. -/
theorem lowerEnd_walked (hconst : Closed constUse) {env : ZoneEnv} {entries : DeferFrame}
    {own dues : List Due} {ownOwed owed : List Owed} {nextTemp : Nat} {cleanup : List IrStmt}
    (hown : Stands env entries own ownOwed) (hzoned : Zoned env owed)
    (hemit : emitEntries ctx constUse entries = some cleanup) :
    Walked ctx constUse reads env (blockEnvAfter env cleanup) nextTemp
      ⟨ownOwed.all (Owed.heldAt ctx reads owed (env.map Prod.fst)), env.map Prod.fst, nextTemp⟩ dues
      (sourceBlock own []) (blockPaths env cleanup) (blockUntouched env cleanup) := by
  have henv := cleanup_envAfter hemit env
  refine ⟨by rw [henv], rfl, ⟨[], henv⟩, fun hheld before events exit after hpath => ?_,
    fun hreads hheld => (cleans_of_held hconst hown hzoned hemit hheld).untouched hreads⟩
  obtain ⟨rfl, rfl, hshows⟩ :=
    (cleans_of_held hconst hown hzoned hemit hheld).shown _ _ _ _ hpath
  refine ⟨closing own, ⟨rfl, rfl, rfl⟩, ?_⟩
  unfold Ends
  rwa [onReturn, List.append_nil]

theorem mentions_lowerReturnValue (hconst : Closed constUse) {scope : Scope}
    {value : Option Expr} {lowered : Option IrExpr}
    (hlowered : lowerReturnValue ctx constUse returnType scope value = some lowered) :
    ∀ name ∈ boundLocalReads lowered, name ∈ boundNames ctx [] value := by
  cases value with
  | none =>
      obtain rfl := Option.some.inj hlowered
      exact nofun
  | some value =>
      simp only [lowerReturnValue, Option.map_eq_some_iff] at hlowered
      obtain ⟨result, hresult, rfl⟩ := hlowered
      exact mentions_lowerExpr hconst hresult

theorem lowerReturn_walked (hconst : Closed constUse) {env : ZoneEnv} {frames : List DeferFrame}
    {own dues : List Due} {all owed : List Owed} {scope : Scope} {nextTemp : Nat}
    {value : Option Expr} {rest : List Stmt} {lowered : Lowered (List IrStmt)}
    (hstands : Stands env frames.flatten (own ++ dues) all) (hzoned : Zoned env owed)
    (hlowered : lowerReturn ctx constUse returnType frames scope nextTemp value = some lowered) :
    Walked ctx constUse reads env (blockEnvAfter env lowered.value) lowered.nextTemp
      ⟨avoids reads owed (env.map Prod.fst) (boundNames ctx [] value) &&
        all.all (Owed.heldAt ctx reads owed (env.map Prod.fst)), env.map Prod.fst, nextTemp⟩ dues
      (sourceBlock own (.returnStmt value :: rest)) (blockPaths env lowered.value)
      (blockUntouched env lowered.value) := by
  simp only [lowerReturn, Option.bind_eq_bind, Option.bind_eq_some_iff, Option.pure_def,
    Option.some.injEq] at hlowered
  obtain ⟨cleanup, hcleanup, result, hresult, rfl⟩ := hlowered
  have hkeep := cleanup_envAfter hcleanup env
  have henv : blockEnvAfter env (cleanup ++ [.returnStmt result]) = env := by
    rw [blockEnvAfter, List.foldl_append]
    exact hkeep
  refine ⟨by rw [henv], rfl, ⟨[], henv⟩, fun hkept before events exit after hpath => ?_,
    ?_⟩
  · rw [Bool.and_eq_true] at hkept
    have hcleans := cleans_of_held hconst hstands hzoned hcleanup hkept.2
    obtain ⟨rfl, rfl, hshows⟩ := hcleans.returned result hpath
    refine ⟨closing own, ⟨rfl, rfl, rfl⟩, ?_⟩
    unfold Ends
    rwa [onReturn, closing, closing, ← List.map_append]
  · rintro rfl hkept
    rw [Bool.and_eq_true] at hkept
    have hcleans := cleans_of_held hconst hstands hzoned hcleanup hkept.2
    have hvalue := mentionsZone_of_avoids hzoned hkept.1
      (mentions_lowerReturnValue hconst hresult)
    rw [blockUntouched_append, hcleans.untouched rfl, hkeep]
    change (true && ((false || !mentionsZone env (boundLocalReads result)) && true)) = true
    rw [hvalue]
    rfl

theorem lowerTry_after {frames : List DeferFrame} {scope : Scope} {nextTemp : Nat} {name : Name}
    {initializer : Expr} {lowered : Lowered (List IrStmt)}
    (hlowered : lowerTry ctx constUse returnType frames scope nextTemp name initializer =
      some lowered) (env : ZoneEnv) :
    lowered.nextTemp = nextTemp + 1 ∧ blockEnvAfter env lowered.value =
      (name, none) :: (generatedName "try" nextTemp, none) :: env := by
  simp only [lowerTry, Option.bind_eq_bind, Option.bind_eq_some_iff] at hlowered
  obtain ⟨init, -, hlowered⟩ := hlowered
  split at hlowered
  · simp only [Option.bind_eq_some_iff, Option.pure_def, Option.some.injEq] at hlowered
    obtain ⟨withTemp, -, cleanup, -, defined, -, rfl⟩ := hlowered
    exact ⟨rfl, rfl⟩
  · simp at hlowered

/-- The newest name is no zone's. -/
theorem mentionsZone_newest (env : ZoneEnv) (name : Name) :
    mentionsZone ((name, none) :: env) [name] = false := by
  simp [mentionsZone]

/-- `try` evaluates, and returns or binds what it got. -/
theorem lowerTry_walked (hconst : Closed constUse) {env after : ZoneEnv}
    {frames : List DeferFrame} {own dues : List Due} {all owed : List Owed} {scope : Scope}
    {nextTemp : Nat} {name : Name} {initializer : Expr} {rest : List Stmt}
    {lowered remaining : Lowered (List IrStmt)} {walk : Walk}
    (hstands : Stands env frames.flatten (own ++ dues) all) (hzoned : Zoned env owed)
    (hlowered : lowerTry ctx constUse returnType frames scope nextTemp name initializer =
      some lowered)
    (hrest : Walked ctx constUse reads
      ((name, none) :: (generatedName "try" nextTemp, none) :: env) after
      remaining.nextTemp walk dues (sourceBlock own rest)
      (blockPaths ((name, none) :: (generatedName "try" nextTemp, none) :: env) remaining.value)
      (blockUntouched ((name, none) :: (generatedName "try" nextTemp, none) :: env)
        remaining.value)) :
    Walked ctx constUse reads env after remaining.nextTemp
      ⟨avoids reads owed (env.map Prod.fst) (exprNames ctx [] initializer) &&
          (all.all
              (Owed.heldAt ctx reads owed (generatedName "try" nextTemp :: env.map Prod.fst)) &&
            walk.kept), walk.bound, walk.nextTemp⟩ dues
      (sourceBlock own (.tryStmt name initializer :: rest))
      (blockPaths env (lowered.value ++ remaining.value))
      (blockUntouched env (lowered.value ++ remaining.value)) := by
  have hafter := (lowerTry_after hlowered env).2
  simp only [lowerTry, Option.bind_eq_bind, Option.bind_eq_some_iff] at hlowered
  obtain ⟨init, hinit, hlowered⟩ := hlowered
  split at hlowered
  · simp only [Option.bind_eq_some_iff, Option.pure_def, Option.some.injEq] at hlowered
    obtain ⟨withTemp, -, cleanup, hcleanup, defined, -, rfl⟩ := hlowered
    obtain ⟨added, hadded⟩ := hrest.extended
    have hbehind : Stands ((generatedName "try" nextTemp, none) :: env) frames.flatten
      (own ++ dues) all := hstands.extend [(generatedName "try" nextTemp, none)]
    have hzonedTemp := hzoned.bind (generatedName "try" nextTemp)
    refine ⟨hrest.bound, hrest.nextTemp_eq,
      ⟨added ++ [(name, none), (generatedName "try" nextTemp, none)], ?_⟩, ?_, ?_⟩
    · rw [hadded, List.append_assoc]
      rfl
    · intro hkept before events exit stop hpath
      rw [Bool.and_eq_true, Bool.and_eq_true] at hkept
      have hcleans := cleans_of_held hconst hbehind hzonedTemp hcleanup hkept.2.1
      cases hpath with
      | returned hreturned => cases hreturned.2.1
      | next hevaluate hlate =>
          obtain ⟨rfl, -, rfl⟩ := hevaluate
          cases hlate with
          | returned hreturned =>
              rcases hreturned with hreturned | hskip
              · obtain ⟨-, rfl, hshows⟩ := hcleans.returned _ hreturned
                refine ⟨_, ⟨closing own, rfl, .inl ⟨rfl, rfl, rfl⟩⟩, .ran (.tryStmt hinit) ?_⟩
                rw [closing, List.map_append] at hshows
                exact hshows
              · cases hskip.2.1
          | next htest hbind =>
              rcases htest with hreturned | hskip
              · cases (hcleans.returned _ hreturned).1
              · obtain ⟨rfl, -, rfl⟩ := hskip
                cases hbind with
                | returned hreturned => cases hreturned.2.1
                | next hname hlast =>
                    obtain ⟨rfl, -, rfl⟩ := hname
                    obtain ⟨acts, hacts, hshows⟩ := hrest.simulates hkept.2.2 _ _ _ _ hlast
                    refine ⟨_, ⟨_, rfl, .inr ⟨acts, rfl, hacts⟩⟩, ?_⟩
                    exact .ran (.tryStmt hinit) (.bound hshows)
    · rintro rfl hkept
      rw [Bool.and_eq_true, Bool.and_eq_true] at hkept
      have hcleans := cleans_of_held hconst hbehind hzonedTemp hcleanup hkept.2.1
      have hvalue := mentionsZone_of_avoids hzoned hkept.1 (mentions_lowerExpr hconst hinit)
      have htemp := mentionsZone_newest env (generatedName "try" nextTemp)
      have hbranch : ∀ type, blockUntouched ((generatedName "try" nextTemp, none) :: env)
          (cleanup ++ [.returnStmt (some (.err type))]) = true := by
        intro type
        rw [blockUntouched_append, hcleans.untouched rfl]
        rfl
      rw [blockUntouched_append, hafter, hrest.untouched_eq rfl hkept.2.2]
      simp only [blockUntouched, stmtUntouched, elseUntouched, envAfter, IrExpr.localReads, hvalue,
        htemp, hbranch]
      simp
  · simp at hlowered

/-- A zone is released behind its body, whichever way control leaves it. -/
theorem lowerZone_walked {env : ZoneEnv} {dues : List Due} {body : List Stmt}
    {inner : Lowered (List IrStmt)} {walk : Walk} {zoneName : Name}
    (hbody : ∀ number, Walked ctx constUse reads ((zoneName, some number) :: env)
      (blockEnvAfter ((zoneName, some number) :: env) inner.value) inner.nextTemp walk
      (.zone number :: dues) (sourceBlock [] body)
      (blockPaths ((zoneName, some number) :: env) inner.value)
      (blockUntouched ((zoneName, some number) :: env) inner.value)) :
    Walked ctx constUse reads env env inner.nextTemp
      ⟨walk.kept && meansZone walk.bound (zoneName, env.length + 1), env.map Prod.fst,
        walk.nextTemp⟩ dues (sourceStmt (.zone body))
      (stmtPaths env (.zone zoneName (inner.value ++ [zoneReleaseStmt zoneName])))
      (stmtUntouched env (.zone zoneName (inner.value ++ [zoneReleaseStmt zoneName]))) := by
  refine ⟨rfl, (hbody 0).nextTemp_eq, ⟨[], rfl⟩, ?_, ?_⟩
  · rintro hkept before events exit after ⟨events, rfl, hpath⟩
    rw [Bool.and_eq_true] at hkept
    obtain ⟨added, hadded⟩ := (hbody before).extended
    cases blockPaths_append hpath with
    | returned hreturned =>
        obtain ⟨acts, hacts, hshows⟩ := (hbody before).simulates hkept.1 _ _ _ _ hreturned
        refine ⟨_, ⟨acts, rfl, hacts⟩, ?_⟩
        unfold Ends at *
        simp only [onReturn, closing, List.map_cons, List.cons_append, List.append_assoc,
          List.nil_append] at hshows ⊢
        exact .entered hshows
    | next hearly hlate =>
        obtain ⟨acts, hacts, hshows⟩ := (hbody before).simulates hkept.1 _ _ _ _ hearly
        cases hlate with
        | returned hreturned => cases hreturned.2.1
        | next hrelease hend =>
            obtain ⟨rfl, -, rfl⟩ := hrelease
            obtain ⟨rfl, rfl, rfl⟩ := hend
            refine ⟨_, ⟨acts, rfl, hacts⟩, ?_⟩
            have hname : meansZone ((added ++ (zoneName, some before) :: env).map Prod.fst)
                (zoneName, env.length + 1) = true := by
              rw [← hadded, ← (hbody before).bound]
              exact hkept.2
            rw [hadded, releasedZone_of_meansZone hname]
            unfold Ends at *
            simp only [onReturn, List.append_nil] at hshows ⊢
            exact .entered (hshows.append (.released .nil))
  · intro hreads hkept
    rw [Bool.and_eq_true] at hkept
    rw [stmtUntouched, blockUntouched_append, (hbody 0).untouched_eq hreads hkept.1]
    rfl

theorem Stands.push {env : ZoneEnv} {entries : DeferFrame} {dues : List Due} {owed : List Owed}
    (hstands : Stands env entries dues owed) (zoneName : Name) (number : Nat) :
    Stands ((zoneName, some number) :: env) (.zoneRelease zoneName :: entries)
      (.zone number :: dues) (.zone zoneName (env.length + 1) :: owed) :=
  .zone (List.nil_append _).symm (hstands.extend [(zoneName, some number)])

theorem Zoned.append {env : ZoneEnv} {own owed : List Owed} (hown : zonesOf own = [])
    (hzoned : Zoned env owed) : Zoned env (own ++ owed) := by
  unfold Zoned
  rw [zonesOf_append, hown]
  exact hzoned

/-- What was owed is owed behind a statement that binds names. -/
theorem Zoned.extend {env : ZoneEnv} {owed : List Owed} (hzoned : Zoned env owed)
    (statement : IrStmt) : Zoned (envAfter env statement) owed := by
  cases statement with
  | letStmt name isMutable type value => exact hzoned.bind name
  | _ => exact hzoned

mutual

theorem lowerStatement_walked (hconst : Closed constUse) {frames : List DeferFrame}
    {scope : Scope} {nextTemp : Nat} {lowered : Lowered IrStmt} {env : ZoneEnv}
    {dues : List Due} {owed : List Owed} (hstands : Stands env frames.flatten dues owed)
    (hzoned : Zoned env owed) :
    (statement : Stmt) →
    lowerStatement ctx constUse returnType frames scope nextTemp statement = some lowered →
    Walked ctx constUse reads env (envAfter env lowered.value) lowered.nextTemp
      (zoneWalkStmt ctx reads owed (env.map Prod.fst) nextTemp statement) dues
      (sourceStmt statement)
      (stmtPaths env lowered.value) (stmtUntouched env lowered.value)
  | .letStmt name isMutable sourceType initializer, hlowered => by
      have hlowers := Lowers.plain hlowered
      simp only [lowerStatement, Option.bind_eq_bind, Option.bind_eq_some_iff, Option.pure_def,
        Option.some.injEq] at hlowered
      obtain ⟨init, hinit, defined, -, rfl⟩ := hlowered
      exact .of_step rfl ⟨[(name, none)], rfl⟩ hlowers fun hreads havoids =>
        mentionsZone_of_avoids hzoned (hreads ▸ havoids) (mentions_lowerExpr hconst hinit)
  | .assign target value, hlowered => by
      have hlowers := Lowers.plain hlowered
      simp only [lowerStatement, Option.bind_eq_bind, Option.bind_eq_some_iff, Option.pure_def,
        Option.some.injEq] at hlowered
      obtain ⟨first, hfirst, second, hsecond, rfl⟩ := hlowered
      exact .of_step rfl ⟨[], rfl⟩ hlowers fun hreads havoids =>
        mentionsZone_of_avoids hzoned (hreads ▸ havoids) (mentions_append
          (mentions_lowerExpr hconst hfirst) (mentions_lowerExpr hconst hsecond))
  | .expr value, hlowered => by
      have hlowers := Lowers.plain hlowered
      simp only [lowerStatement, Option.bind_eq_bind, Option.bind_eq_some_iff, Option.pure_def,
        Option.some.injEq] at hlowered
      obtain ⟨first, hfirst, rfl⟩ := hlowered
      exact .of_step rfl ⟨[], rfl⟩ hlowers fun hreads havoids =>
        mentionsZone_of_avoids hzoned (hreads ▸ havoids) (mentions_lowerExpr hconst hfirst)
  | .free value, hlowered => by
      have hlowers := Lowers.plain hlowered
      simp only [lowerStatement, Option.bind_eq_bind, Option.bind_eq_some_iff, Option.pure_def,
        Option.some.injEq] at hlowered
      obtain ⟨first, hfirst, rfl⟩ := hlowered
      exact .of_step rfl ⟨[], rfl⟩ hlowers fun hreads havoids =>
        mentionsZone_of_avoids hzoned (hreads ▸ havoids) (mentions_lowerExpr hconst hfirst)
  | .zone body, hlowered => by
      simp only [lowerStatement, Option.bind_eq_bind, Option.bind_eq_some_iff, Option.pure_def,
        Option.some.injEq] at hlowered
      obtain ⟨zoneScope, -, inner, hinner, rfl⟩ := hlowered
      rw [zoneWalkStmt, List.length_map]
      exact lowerZone_walked fun number =>
        lowerStatements_walked hconst (hstands.push _ number) (hzoned.enter _ number) .nil rfl body
          hinner
  | .ifStmt condition thenBlock elseBlock, hlowered => by
      simp only [lowerStatement, Option.bind_eq_bind, Option.bind_eq_some_iff, Option.pure_def,
        Option.some.injEq] at hlowered
      obtain ⟨test, htest, first, hfirst, second, hsecond, rfl⟩ := hlowered
      have hthen := lowerStatements_walked hconst hstands hzoned .nil rfl thenBlock hfirst
      rw [← hthen.nextTemp_eq] at hsecond
      have helse := lowerElse_walked hconst hstands hzoned elseBlock hsecond
      refine ⟨rfl, helse.nextTemp_eq, ⟨[], rfl⟩, ?_, fun hreads hkept => ?_⟩
      · rintro hkept before events exit after (hpath | hpath)
        · rw [zoneWalkStmt, Bool.and_eq_true, Bool.and_eq_true] at hkept
          obtain ⟨acts, hacts, hshows⟩ := hthen.simulates hkept.2.1 _ _ _ _ hpath
          exact ⟨acts, .inl hacts, hshows⟩
        · rw [zoneWalkStmt, Bool.and_eq_true, Bool.and_eq_true] at hkept
          obtain ⟨acts, hacts, hshows⟩ := helse.simulates hkept.2.2 _ _ _ _ hpath
          exact ⟨acts, .inr hacts, hshows⟩
      · rw [zoneWalkStmt, Bool.and_eq_true, Bool.and_eq_true] at hkept
        rw [stmtUntouched, hthen.untouched_eq hreads hkept.2.1, helse.untouched_eq hreads hkept.2.2,
          mentionsZone_of_avoids hzoned (hreads ▸ hkept.1) (mentions_lowerExpr hconst htest)]
        rfl
  | .whileStmt condition body, hlowered => by
      simp only [lowerStatement, Option.bind_eq_bind, Option.bind_eq_some_iff, Option.pure_def,
        Option.some.injEq] at hlowered
      obtain ⟨test, htest, inner, hinner, rfl⟩ := hlowered
      have hbody := lowerStatements_walked hconst hstands hzoned .nil rfl body hinner
      refine ⟨rfl, hbody.nextTemp_eq, ⟨[], rfl⟩, fun hkept => ?_, fun hreads hkept => ?_⟩
      · rw [zoneWalkStmt, Bool.and_eq_true] at hkept
        exact (hbody.simulates hkept.2).rounds (composes_ends dues)
      · rw [zoneWalkStmt, Bool.and_eq_true] at hkept
        rw [stmtUntouched, hbody.untouched_eq hreads hkept.2,
          mentionsZone_of_avoids hzoned (hreads ▸ hkept.1) (mentions_lowerExpr hconst htest)]
        rfl
  | .loop body, hlowered => by
      simp only [lowerStatement, Option.bind_eq_bind, Option.bind_eq_some_iff, Option.pure_def,
        Option.some.injEq] at hlowered
      obtain ⟨inner, hinner, rfl⟩ := hlowered
      have hbody := lowerStatements_walked hconst hstands hzoned .nil rfl body hinner
      exact ⟨rfl, hbody.nextTemp_eq, ⟨[], rfl⟩,
        fun hkept => (hbody.simulates hkept).rounds (composes_ends dues), hbody.untouched_eq⟩
  | .forStmt name sourceType start stop body, hlowered => by
      simp only [lowerStatement, Option.bind_eq_bind, Option.bind_eq_some_iff, Option.pure_def,
        Option.some.injEq] at hlowered
      obtain ⟨first, hfirst, last, hlast, loopScope, -, inner, hinner, rfl⟩ := hlowered
      have hbody := lowerStatements_walked hconst (hstands.extend [(name, none)])
        (hzoned.bind name) .nil rfl body hinner
      refine ⟨rfl, hbody.nextTemp_eq, ⟨[], rfl⟩, fun hkept => ?_, fun hreads hkept => ?_⟩
      · rw [zoneWalkStmt, Bool.and_eq_true] at hkept
        exact (hbody.simulates hkept.2).rounds (composes_ends dues)
      · rw [zoneWalkStmt, Bool.and_eq_true] at hkept
        have hbounds := mentionsZone_of_avoids hzoned (hreads ▸ hkept.1)
          (mentions_append (mentions_lowerExpr hconst hfirst) (mentions_lowerExpr hconst hlast))
        have huntouched : blockUntouched ((name, none) :: env) inner.value = true :=
          hbody.untouched_eq hreads hkept.2
        rw [stmtUntouched, huntouched, hbounds]
        rfl

theorem lowerElse_walked (hconst : Closed constUse) {frames : List DeferFrame} {scope : Scope}
    {nextTemp : Nat} {lowered : Lowered (Option IrBlock)} {env : ZoneEnv} {dues : List Due}
    {owed : List Owed} (hstands : Stands env frames.flatten dues owed) (hzoned : Zoned env owed) :
    (elseBlock : Option (List Stmt)) →
    lowerElse ctx constUse returnType frames scope nextTemp elseBlock = some lowered →
    Walked ctx constUse reads env env lowered.nextTemp
      (zoneWalkElse ctx reads owed (env.map Prod.fst) nextTemp elseBlock) dues
      (sourceElse elseBlock)
      (elsePaths env lowered.value) (elseUntouched env lowered.value)
  | none, hlowered => by
      simp only [lowerElse, Option.some.injEq] at hlowered
      subst hlowered
      exact ⟨rfl, rfl, ⟨[], rfl⟩, fun _ => .skip (composes_ends dues), fun _ _ => rfl⟩
  | some block, hlowered => by
      simp only [lowerElse, Option.bind_eq_bind, Option.bind_eq_some_iff, Option.pure_def,
        Option.some.injEq] at hlowered
      obtain ⟨inner, hinner, rfl⟩ := hlowered
      have hblock := lowerStatements_walked hconst hstands hzoned .nil rfl block hinner
      exact ⟨rfl, hblock.nextTemp_eq, ⟨[], rfl⟩, hblock.simulates, hblock.untouched_eq⟩

theorem lowerStatements_walked (hconst : Closed constUse) {outer : List DeferFrame}
    {scope : Scope} {nextTemp : Nat} {entries : DeferFrame} {lowered : Lowered (List IrStmt)}
    {env : ZoneEnv} {own dues : List Due} {ownOwed owed : List Owed}
    (hstands : Stands env outer.flatten dues owed) (hzoned : Zoned env owed)
    (hown : Stands env entries own ownOwed) (hdeferred : zonesOf ownOwed = []) :
    (statements : List Stmt) →
    lowerStatements ctx constUse returnType outer scope nextTemp entries statements =
      some lowered →
    Walked ctx constUse reads env (blockEnvAfter env lowered.value) lowered.nextTemp
      (zoneWalkBlock ctx reads owed ownOwed (env.map Prod.fst) nextTemp statements) dues
      (sourceBlock own statements) (blockPaths env lowered.value)
      (blockUntouched env lowered.value)
  | [], hlowered => by
      simp only [lowerStatements, Option.bind_eq_bind, Option.bind_eq_some_iff, Option.pure_def,
        Option.some.injEq] at hlowered
      obtain ⟨cleanup, hcleanup, rfl⟩ := hlowered
      exact lowerEnd_walked hconst hown hzoned hcleanup
  | statement :: rest, hlowered => by
      have hall : Stands env (entries :: outer).flatten (own ++ dues) (ownOwed ++ owed) :=
        hown.append hstands
      cases hplain : isPlain statement with
      | true =>
          simp only [lowerStatements_plain ctx constUse hplain, Option.bind_eq_bind,
            Option.bind_eq_some_iff, Option.pure_def, Option.some.injEq] at hlowered
          obtain ⟨first, hfirst, remaining, hremaining, rfl⟩ := hlowered
          have hstatement := lowerStatement_walked hconst hall (hzoned.append hdeferred) statement
            hfirst
          obtain ⟨added, hadded⟩ := hstatement.extended
          have hrest := lowerStatements_walked hconst (hadded ▸ hstands.extend added)
            (hzoned.extend first.value) (hadded ▸ hown.extend added) hdeferred rest hremaining
          obtain ⟨more, hmore⟩ := hrest.extended
          rw [← hstatement.bound, ← hstatement.nextTemp_eq] at hrest
          rw [zoneWalkBlock_plain hplain, sourceBlock_plain hplain]
          refine ⟨hrest.bound, hrest.nextTemp_eq, ⟨more ++ added, ?_⟩, fun hkept => ?_,
            fun hreads hkept => ?_⟩
          · rw [List.append_assoc, ← hadded]
            exact hmore
          · rw [Bool.and_eq_true] at hkept
            exact (simulates_leaving (hstatement.simulates hkept.1)).seq (composes_ends dues)
              (hrest.simulates hkept.2)
          · rw [Bool.and_eq_true] at hkept
            rw [blockUntouched, hstatement.untouched_eq hreads hkept.1,
              hrest.untouched_eq hreads hkept.2,
              Bool.or_true]
            rfl
      | false =>
          cases statement with
          | defer statement =>
              rw [lowerStatements] at hlowered
              have hrest := lowerStatements_walked hconst hstands hzoned (.deferred hown) hdeferred
                rest hlowered
              refine ⟨hrest.bound, hrest.nextTemp_eq, hrest.extended, ?_, hrest.untouched_eq⟩
              intro hkept before events exit after hpath
              obtain ⟨acts, hacts, hshows⟩ := hrest.simulates hkept _ _ _ _ hpath
              exact ⟨_, ⟨acts, rfl, hacts⟩, .registered hshows⟩
          | tryStmt name initializer =>
              simp only [lowerStatements, Option.bind_eq_bind, Option.bind_eq_some_iff,
                Option.pure_def, Option.some.injEq] at hlowered
              obtain ⟨first, hfirst, remaining, hremaining, rfl⟩ := hlowered
              obtain ⟨htemp, hafter⟩ := lowerTry_after hfirst env
              rw [htemp] at hremaining
              have hrest := lowerStatements_walked hconst
                (hstands.extend [(name, none), (generatedName "try" nextTemp, none)])
                ((hzoned.bind (generatedName "try" nextTemp)).bind name)
                (hown.extend [(name, none), (generatedName "try" nextTemp, none)]) hdeferred rest
                hremaining
              have henv : blockEnvAfter env (first.value ++ remaining.value) =
                  blockEnvAfter ((name, none) :: (generatedName "try" nextTemp, none) :: env)
                    remaining.value := by
                rw [← hafter]
                exact List.foldl_append
              rw [henv]
              exact lowerTry_walked hconst hall hzoned hfirst hrest
          | returnStmt value =>
              rw [lowerStatements] at hlowered
              exact lowerReturn_walked hconst hall hzoned hlowered
          | _ => simp [isPlain] at hplain

end

end Walk

end Cleanup

end Cnegative
