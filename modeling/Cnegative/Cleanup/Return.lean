import Cnegative.Lower.Project
import Cnegative.Semantics.Confined
import Cnegative.Semantics.Ends

namespace Cnegative

namespace Lower

open Library.Runs
open Semantics

/-! The value of a `return`. `cn_ir_lower_block` puts the cleanup in front of the statement, so
the value is computed behind it. -/

section

variable {ω : Type} {structs : StructTable} {callee : Callee ω} {fuel : Nat} {env : Env}

/-- For a cleanup statement that only ends memory, what it ends it through: the handle of the zone
that it releases, or the value of the local that it frees. -/
def endedValue (env : Env) (state : State ω) : IrStmt → Option Value
  | .expr (.call _ target moduleName functionName [.local _ name]) =>
      if isZoneRelease target moduleName functionName then localValue env state name else none
  | .free (.local _ name) => localValue env state name
  | _ => none

def endedValues (env : Env) (state : State ω) : List IrStmt → Option (List Value)
  | [] => some []
  | statement :: rest => do
      let first ← endedValue env state statement
      let remaining ← endedValues env state rest
      return first :: remaining

/-- A statement that only ends memory ends what its local stands for. -/
theorem execStmt_ends {statement : IrStmt} {before state after : State ω} {value : Value}
    {outcome : Env × Flow} (hvalue : endedValue env before statement = some value)
    (hwithin : state.Within before)
    (hrun : execStmt structs callee fuel env statement state = .ok outcome after) :
    after.SameMemory (state.without [value]) := by
  -- Its local still holds what it held before.
  have hkept : ∀ {name : Name} {found : Value}, localValue env before name = some value →
      localValue env state name = some found → found = value := by
    intro name found hbefore hfound
    have hlate := localValue_of_within hwithin hfound
    rw [hbefore] at hlate
    exact (Option.some.inj hlate).symm
  unfold endedValue at hvalue
  split at hvalue
  · next type target moduleName functionName localType name =>
      split at hvalue
      · next hrelease =>
          rw [execStmt] at hrun
          obtain ⟨result, middle, hcall, hend⟩ := bind_eq_ok.mp hrun
          obtain ⟨-, rfl⟩ := pure_eq_ok.mp hend
          rw [denote] at hcall
          obtain ⟨arguments, later, harguments, hevaluate⟩ := bind_eq_ok.mp hcall
          rw [denoteItems] at harguments
          obtain ⟨found, behind, hlocal, hitems⟩ := bind_eq_ok.mp harguments
          rw [value_local] at hlocal
          obtain ⟨hfound, rfl⟩ := ofOption_eq_ok.mp hlocal
          rw [denoteItems] at hitems
          cases hitems
          obtain rfl := hkept hvalue hfound
          rw [evalCall, if_pos hrelease] at hevaluate
          obtain ⟨_, last, hzone, hvoid⟩ := bind_eq_ok.mp hevaluate
          obtain ⟨-, rfl⟩ := pure_eq_ok.mp hvoid
          exact releaseZone_ends hzone
      · cases hvalue
  · next type name =>
      rw [execStmt] at hrun
      obtain ⟨found, middle, hlocal, hboth⟩ := bind_eq_ok.mp hrun
      rw [value_local] at hlocal
      obtain ⟨hfound, rfl⟩ := ofOption_eq_ok.mp hlocal
      obtain ⟨_, last, hfree, hend⟩ := bind_eq_ok.mp hboth
      obtain ⟨-, rfl⟩ := pure_eq_ok.mp hend
      obtain rfl := hkept hvalue hfound
      exact free_ends hfree
  · cases hvalue

/-! Cleanup is run through and binds nothing. -/

def IrStmt.lookups : IrStmt → List Name
  | .expr value | .free value => value.lookups
  | _ => []

/-- The kinds of statement that a `defer` and a zone put into the IR. -/
def IrStmt.isCleanup : IrStmt → Bool
  | .expr _ | .free _ => true
  | _ => false

theorem emitEntries_isCleanup {ctx : Context} {constUse : ConstUse} {entries : DeferFrame}
    {cleanup : List IrStmt} (hcleanup : emitEntries ctx constUse entries = some cleanup) :
    ∀ statement ∈ cleanup, IrStmt.isCleanup statement = true := by
  induction entries generalizing cleanup with
  | nil =>
      cases hcleanup
      simp
  | cons entry rest ih =>
      simp only [emitEntries, Option.bind_eq_bind, Option.bind_eq_some_iff, Option.pure_def,
        Option.some.injEq] at hcleanup
      obtain ⟨first, hfirst, remaining, hremaining, rfl⟩ := hcleanup
      refine List.forall_mem_cons.mpr ⟨?_, ih hremaining⟩
      cases entry with
      | zoneRelease zoneName =>
          cases hfirst
          rfl
      | statement deferred scope =>
          cases deferred with
          | expr value | free value =>
              obtain ⟨lowered, -, rfl⟩ := Option.map_eq_some_iff.mp hfirst
              rfl

theorem execStmt_isCleanup {statement : IrStmt} (hkind : IrStmt.isCleanup statement = true)
    {state after : State ω} {outcome : Env × Flow}
    (hrun : execStmt structs callee fuel env statement state = .ok outcome after) :
    outcome = (env, .next) := by
  cases statement with
  | expr value =>
      rw [execStmt] at hrun
      obtain ⟨_, _, -, hend⟩ := bind_eq_ok.mp hrun
      exact (pure_eq_ok.mp hend).1.symm
  | free value =>
      rw [execStmt] at hrun
      obtain ⟨_, _, -, hfree⟩ := bind_eq_ok.mp hrun
      obtain ⟨_, _, -, hend⟩ := bind_eq_ok.mp hfree
      exact (pure_eq_ok.mp hend).1.symm
  | _ => cases hkind

theorem execStmts_cleanup {cleanup : List IrStmt}
    (hkinds : ∀ statement ∈ cleanup, IrStmt.isCleanup statement = true) (rest : List IrStmt)
    {state cleaned : State ω} {flow : Flow}
    (hrun : execStmts structs callee fuel env cleanup state = .ok flow cleaned) :
    execStmts structs callee fuel env (cleanup ++ rest) state =
      execStmts structs callee fuel env rest cleaned := by
  induction cleanup generalizing state with
  | nil =>
      cases hrun
      rfl
  | cons statement more ih =>
      obtain ⟨hkind, hmore⟩ := List.forall_mem_cons.mp hkinds
      rw [execStmts] at hrun
      obtain ⟨outcome, middle, hstatement, hbehind⟩ := bind_eq_ok.mp hrun
      obtain rfl := execStmt_isCleanup hkind hstatement
      rw [List.cons_append, execStmts, bind_of_ok hstatement]
      exact ih hmore hbehind

theorem execStmts_return {result : IrExpr} {state final : State ω} {value : Value} :
    execStmts structs callee fuel env [.returnStmt (some result)] state =
        .ok (.returned (some value)) final ↔
      (denote structs callee env result).value state = .ok value final := by
  rw [execStmts, execStmt, returnValue]
  constructor
  · intro hrun
    obtain ⟨⟨later, flow⟩, middle, hstatement, hend⟩ := bind_eq_ok.mp hrun
    obtain ⟨returned, middle', hreturn, hflow⟩ := bind_eq_ok.mp hstatement
    obtain ⟨found, middle'', hvalue, hsome⟩ := bind_eq_ok.mp hreturn
    cases hsome
    cases hflow
    cases hend
    exact hvalue
  · intro hvalue
    refine bind_eq_ok.mpr ⟨(env, .returned (some value)), final, ?_, rfl⟩
    exact bind_eq_ok.mpr ⟨some value, final, bind_eq_ok.mpr ⟨value, final, hvalue, rfl⟩, rfl⟩

/-- A cleanup that only ends memory leaves the memory that it does not end. -/
theorem cleanup_ends {before : State ω} {cleanup : List IrStmt} :
    ∀ {done values : List Value} {state cleaned : State ω} {flow : Flow},
      (∀ statement ∈ cleanup, IrStmt.isCleanup statement = true) →
      state.SameMemory (before.without done) → endedValues env before cleanup = some values →
      execStmts structs callee fuel env cleanup state = .ok flow cleaned →
      cleaned.SameMemory (before.without (done ++ values)) := by
  induction cleanup with
  | nil =>
      intro done values state cleaned flow _ hstate hvalues hrun
      cases hvalues
      cases hrun
      rwa [List.append_nil]
  | cons statement rest ih =>
      intro done values state cleaned flow hkinds hstate hvalues hrun
      obtain ⟨hkind, hrest⟩ := List.forall_mem_cons.mp hkinds
      simp only [endedValues, Option.bind_eq_bind, Option.bind_eq_some_iff, Option.pure_def,
        Option.some.injEq] at hvalues
      obtain ⟨value, hvalue, remaining, hremaining, rfl⟩ := hvalues
      rw [execStmts] at hrun
      obtain ⟨outcome, middle, hstatement, hbehind⟩ := bind_eq_ok.mp hrun
      obtain rfl := execStmt_isCleanup hkind hstatement
      have hwithin : state.Within before :=
        hstate.within.trans (before.within_of_without done)
      have hmiddle :=
        ((execStmt_ends hvalue hwithin hstatement).trans (hstate.without [value])).trans
        (before.without_concat done value)
      have hcleaned := ih hrest hmiddle hremaining hbehind
      rwa [List.append_assoc] at hcleaned

/-- A cleanup changes nothing that its locals do not lead to. -/
theorem confined_cleanup {region : Region} (hcallee : callee.Confined region)
    {cleanup : List IrStmt} (hkinds : ∀ statement ∈ cleanup, IrStmt.isCleanup statement = true)
    (henv : env.Inside region (cleanup.flatMap IrStmt.lookups)) :
    Confined region (execStmts structs callee fuel env cleanup) fun _ => True := by
  induction cleanup with
  | nil =>
      rw [execStmts]
      exact confined_pure _ trivial
  | cons statement rest ih =>
      obtain ⟨hkind, hrest⟩ := List.forall_mem_cons.mp hkinds
      rw [List.flatMap_cons, Env.inside_append] at henv
      have hstatement : Confined region (execStmt structs callee fuel env statement)
          fun outcome => outcome = (env, .next) := by
        cases statement with
        | expr value =>
            rw [execStmt]
            exact (confined_value hcallee value henv.1).bind fun _ _ => confined_pure _ rfl
        | free value =>
            rw [execStmt]
            exact (confined_value hcallee value henv.1).bind fun _ hvalue =>
              (confined_free hvalue).bind fun _ _ => confined_pure _ rfl
        | _ => cases hkind
      rw [execStmts]
      refine hstatement.bind fun outcome houtcome => ?_
      rw [houtcome]
      exact ih hrest henv.2

/-- In every state that agrees with this one outside the region, the expression has the value. -/
def SettledOutside (region : Region) (structs : StructTable) (callee : Callee ω) (env : Env)
    (result : IrExpr) (value : Value) (before : State ω) : Prop :=
  ∀ other, State.Apart region before other →
    ∃ behind, (denote structs callee env result).value other = .ok value behind

/-- The value depends on no memory that the locals of the cleanup lead to. -/
def OutOfReach (structs : StructTable) (callee : Callee ω) (env : Env) (cleanup : List IrStmt)
    (result : IrExpr) (value : Value) (before : State ω) : Prop :=
  ∃ region, before.Enclosed region ∧ env.Inside region (cleanup.flatMap IrStmt.lookups) ∧
    SettledOutside region structs callee env result value before

def Returns (structs : StructTable) (callee : Callee ω) (fuel : Nat) (env : Env)
    (block : List IrStmt) (value : Value) (before : State ω) : Prop :=
  ∃ final, execStmts structs callee fuel env block before = .ok (.returned (some value)) final

end

theorem lowerStatements_return {ctx : Context} {constUse : ConstUse} {returnType : TypeRef}
    {outer : List DeferFrame} {scope : Scope} {nextTemp : Nat} {entries : DeferFrame} {value : Expr}
    {rest : Block} {lowered : Lowered (List IrStmt)}
    (hlowered : lowerStatements ctx constUse returnType outer scope nextTemp entries
      (.returnStmt (some value) :: rest) = some lowered) :
    ∃ cleanup result, emitFrames ctx constUse (entries :: outer) = some cleanup ∧
      lowerExpr ctx constUse scope (some returnType) value = some result ∧
      lowered.value = cleanup ++ [.returnStmt (some result)] := by
  rw [lowerStatements] at hlowered
  simp only [lowerReturn, Option.bind_eq_bind, Option.bind_eq_some_iff, Option.pure_def,
    Option.some.injEq] at hlowered
  obtain ⟨cleanup, hcleanup, returned, hreturned, rfl⟩ := hlowered
  obtain ⟨result, hresult, rfl⟩ := Option.map_eq_some_iff.mp hreturned
  exact ⟨cleanup, result, hcleanup, hresult, rfl⟩

/-- At a `return`, in a run that gets through the cleanup. Where the pending entries only release
zones and free locals, the value from in front of them is returned just if the expression has it
without the memory that they end; and under whatever deferred actions it is returned if it depends
on no memory that these can reach. -/
theorem return_is_first_iff {ω : Type} {program : IrProgram} {runtime : Callee ω}
    (hruntime : runtime.Lifts) (hconfined : ∀ region, runtime.Confined region) {ctx : Context}
    {constUse : ConstUse} {returnType : TypeRef} {outer : List DeferFrame} {scope : Scope}
    {nextTemp : Nat} {entries : DeferFrame} {value : Expr} {rest : Block}
    {lowered : Lowered (List IrStmt)}
    (hlowered : lowerStatements ctx constUse returnType outer scope nextTemp entries
      (.returnStmt (some value) :: rest) = some lowered) :
    ∃ cleanup result, emitFrames ctx constUse (entries :: outer) = some cleanup ∧
      lowerExpr ctx constUse scope (some returnType) value = some result ∧
      ∀ (depth fuel : Nat) (env : Env) (before after cleaned : State ω) (found : Value),
        (denote program.structTable (runCall program runtime depth) env result).value before =
          .ok found after →
        execStmts program.structTable (runCall program runtime depth) fuel env cleanup before =
          .ok .next cleaned →
        (∀ values, endedValues env before cleanup = some values →
          (Returns program.structTable (runCall program runtime depth) fuel env lowered.value found
              before ↔
            ∃ behind, (denote program.structTable (runCall program runtime depth) env result).value
              (before.without values) = .ok found behind)) ∧
        (OutOfReach program.structTable (runCall program runtime depth) env cleanup result found
            before →
          Returns program.structTable (runCall program runtime depth) fuel env lowered.value found
            before) := by
  obtain ⟨cleanup, result, hcleanup, hresult, hvalue⟩ := lowerStatements_return hlowered
  refine ⟨cleanup, result, hcleanup, hresult,
    fun depth fuel env before after cleaned found _ hrun => ?_⟩
  have hkinds := emitEntries_isCleanup hcleanup
  have hcallee : (runCall program runtime depth).Lifts := lifts_runCall hruntime depth
  -- The expression is evaluated in the state that the cleanup leaves.
  have hreturns : Returns program.structTable (runCall program runtime depth) fuel env
      lowered.value found before ↔
      ∃ final, (denote program.structTable (runCall program runtime depth) env result).value
        cleaned = .ok found final := by
    unfold Returns
    rw [hvalue, execStmts_cleanup hkinds _ hrun]
    exact exists_congr fun final => execStmts_return
  refine ⟨fun values hvalues => ?_, fun hout => ?_⟩
  · have hends := cleanup_ends hkinds before.without_nil hvalues hrun
    rw [hreturns]
    constructor
    · rintro ⟨final, hfinal⟩
      obtain ⟨behind, hbehind, -⟩ := lifts_value hcallee env result _ _ _ _ hends.within hfinal
      exact ⟨behind, hbehind⟩
    · rintro ⟨behind, hbehind⟩
      obtain ⟨final, hfinal, -⟩ :=
        lifts_value hcallee env result _ _ _ _ hends.symm.within hbehind
      exact ⟨final, hfinal⟩
  · obtain ⟨region, henclosed, henv, hsettled⟩ := hout
    have hconfine := confined_cleanup (confined_runCall (hconfined region) depth) hkinds henv
      before .next cleaned henclosed hrun
    exact hreturns.mpr (hsettled cleaned hconfine.1.2)

/-- `let p:ptr int = alloc int; deref p = 1; defer set(p); return deref p;` where `set` stores 2. -/
def deferredSetProject : Project :=
  ⟨[⟨false, "main", ⟨[], [], [], [
    mainFunction [
      .letStmt "p" false (.ptr .int) (.alloc .int),
      .assign (.deref (.name "p")) (.int 1),
      .defer (.expr (.call (.name "set") [.name "p"])),
      .returnStmt (some (.deref (.name "p")))],
    ⟨false, false, "set", .void, [⟨"p", .ptr .int⟩],
      some [.assign (.deref (.name "p")) (.int 2)]⟩]⟩, []⟩]⟩

def callSet : IrStmt :=
  .expr (.call .void .local "main" "set" [.local (.ptr .int) "p"])

def targetOfP : IrExpr :=
  .deref .int (.local (.ptr .int) "p")

def deferredSetProgram : IrProgram :=
  ⟨[⟨"main", [], [], [
    ⟨false, "main", "main", .int, [], [
      .letStmt "p" false (.ptr .int) (.alloc (.ptr .int) .int), .assign targetOfP (.int .int 1),
      callSet, .returnStmt (some targetOfP)]⟩,
    ⟨false, "main", "set", .void, [⟨"p", .ptr .int⟩], [.assign targetOfP (.int .int 2)]⟩]⟩]⟩

def idle : Callee Unit :=
  fun _ _ _ _ => pure .void

/-- In front of the `return` of `main`, with a further local `x`. -/
def beforeSet : State Unit :=
  ⟨[⟨.heap, true, .int 1⟩, ⟨.stack, true, .ptr (some ⟨0, []⟩)⟩, ⟨.stack, true, .int 5⟩], [], (), []⟩

/-- In a zone with a local `x`. -/
def inZone : State Unit :=
  ⟨[⟨.stack, true, .zone 0⟩, ⟨.stack, true, .int 5⟩, ⟨.zone 0, true, .int 7⟩], [true], (), []⟩

theorem enclosed_beforeSet :
    beforeSet.Enclosed ⟨fun index => index ≠ 2, fun _ => True⟩ where
  cell := by
    intro index cell hregion hcell _
    match index, hcell with
    | 0, hcell | 1, hcell =>
        cases hcell
        simp [Value.Inside]
    | 2, _ => exact absurd rfl hregion
    | _ + 3, hcell => cases hcell
  zoned := by
    intro index cell handle hcell hstorage _
    match index, hcell with
    | 0, hcell | 1, hcell | 2, hcell =>
        cases hcell
        cases hstorage
    | _ + 3, hcell => cases hcell
  fresh := by
    intro index hlength
    exact Nat.ne_of_gt hlength
  freshZone _ := trivial

/-- `return x` with the release of a zone, and with a deferred `set(p)`, in front of it. -/
theorem local_is_returned_first :
    Returns [] (runCall ⟨[]⟩ idle 1) 1 [⟨[("x", 1), ("__cn_zone_0", 0)], ()⟩]
        [zoneReleaseStmt "__cn_zone_0", .returnStmt (some (.local .int "x"))] (.int 5) inZone ∧
      Returns deferredSetProgram.structTable (runCall deferredSetProgram idle 4) 4
        [⟨[("x", 2), ("p", 1)], ()⟩] [callSet, .returnStmt (some (.local .int "x"))] (.int 5)
        beforeSet := by
  have hlifts : idle.Lifts := fun _ _ _ _ => lifts_pure _
  have hconfined : ∀ region, idle.Confined region :=
    fun _ _ _ _ _ _ => confined_pure _ (by simp [Value.Inside])
  constructor
  · obtain ⟨cleanup, result, hcleanup, hresult, hfirst⟩ :=
      @return_is_first_iff Unit ⟨[]⟩ idle hlifts hconfined ⟨mainProject [], 0⟩ (fun _ _ => none)
        .int [] [⟨[("x", ⟨.int, false⟩)], "__cn_zone_0"⟩] 0 [.zoneRelease "__cn_zone_0"] (.name "x")
        [] _ rfl
    cases hcleanup
    cases hresult
    exact ((hfirst 1 1 _ inZone _ _ (.int 5) rfl rfl).1 [.zone 0] rfl).mpr ⟨_, rfl⟩
  · obtain ⟨cleanup, result, hcleanup, hresult, hfirst⟩ :=
      @return_is_first_iff Unit deferredSetProgram idle hlifts hconfined ⟨deferredSetProject, 0⟩
        (fun _ _ => none) .int [] [⟨[("x", ⟨.int, false⟩), ("p", ⟨.ptr .int, false⟩)], ""⟩] 0
        [.statement (.expr (.call (.name "set") [.name "p"])) [⟨[("p", ⟨.ptr .int, false⟩)], ""⟩]]
        (.name "x") [] _ rfl
    cases hcleanup
    cases hresult
    refine (hfirst 4 4 _ beforeSet _ _ (.int 5) rfl rfl).2 ⟨_, enclosed_beforeSet, ?_, ?_⟩
    · intro name hname found hfound
      obtain rfl := List.mem_singleton.mp hname
      cases hfound
      decide
    · intro other hapart
      have hcell : other.cells[2]? = beforeSet.cells[2]? := hapart.cell fun hne => hne rfl
      have hlocal : other.load? ⟨2, []⟩ = some (.int 5) := by
        rw [State.load?, hcell]
        rfl
      refine ⟨other, (value_local .int "x" other).trans ?_⟩
      exact ofOption_eq_ok.mpr ⟨hlocal, rfl⟩

/-- `zone { let v:ptr int = zalloc int; deref v = 7; return deref v; } return 0;` -/
def zoneReturnBody : Block := [
  .zone [
    .letStmt "v" false (.ptr .int) (.zalloc .int),
    .assign (.deref (.name "v")) (.int 7),
    .returnStmt (some (.deref (.name "v")))],
  .returnStmt (some (.int 0))]

/-- The first program returns 2, though `deref p` is 1 in front of the deferred call; the second
one reads released memory. -/
theorem return_is_behind_cleanup :
    Check.Accepted deferredSetProject ∧ lowerProject deferredSetProject = some deferredSetProgram ∧
      mainResult deferredSetProgram 5 = some 2 ∧
      (∃ after, (denote deferredSetProgram.structTable (runCall deferredSetProgram idle 4)
        [⟨[("p", 1)], ()⟩] targetOfP).value beforeSet = .ok (.int 1) after) ∧
      (¬ Returns deferredSetProgram.structTable (runCall deferredSetProgram idle 4) 4
        [⟨[("p", 1)], ()⟩] [callSet, .returnStmt (some targetOfP)] (.int 1) beforeSet) ∧
      Check.Accepted (mainProject zoneReturnBody) ∧
      (lowerProject (mainProject zoneReturnBody)).map (mainResult · 5) = some none := by
  refine ⟨by decide +kernel, rfl, rfl, ⟨_, rfl⟩, ?_, by decide +kernel, by decide +kernel⟩
  rintro ⟨final, hfinal⟩
  cases hfinal

end Lower

end Cnegative
