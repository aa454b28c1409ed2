import Cnegative.Cleanup.Paths
import Cnegative.Semantics.Stmt
import Cnegative.Library.Runs

namespace Cnegative

namespace Cleanup

open Library (Exit Paths)
open Library.Paths (Seq Rounds)
open Library.Runs (bind_eq_ok pure_eq_ok)
open Semantics

variable {ω : Type}

/-! Every run of the IR that ends follows a path, statement by statement. -/

/-- An event of a path without the numbers of its zones. -/
inductive Executed where
  | entered
  | ran (statement : IrStmt)

def Event.executed : Event → Executed
  | .entered _ => .entered
  | .ran statement _ => .ran statement

section

variable (structs : StructTable) (callee : Callee ω) (fuel : Nat)

/-! The pieces of `execStmt`. -/

def testRun (env : Env) (condition : IrExpr) : Eval ω Bool := do
  (← (denote structs callee env condition).value).asBool

def enterRun (env : Env) (zoneName : Name) : Eval ω Env := do
  let handle ← Eval.enterZone
  let place ← Eval.allocate .stack (.zone handle)
  return (env.push.define zoneName place.cell).push

def whileRun (env : Env) (condition : IrExpr) (body : List IrStmt) : Eval ω (Option Flow) := do
  if ← (← (denote structs callee env condition).value).asBool then
    return (← execStmts structs callee fuel env.push body).again
  else return some .next

def loopRun (env : Env) (body : List IrStmt) : Eval ω (Option Flow) := do
  return (← execStmts structs callee fuel env.push body).again

def boundsRun (env : Env) (start stop : IrExpr) : Eval ω (Place × BitVec 64) := do
  let first ← (denote structs callee env start).value
  let last ← (← (denote structs callee env stop).value).asInt
  let counter ← Eval.allocate .stack first
  return (counter, last)

def counterRun (counter : Place) (last : BitVec 64) : Eval ω Bool := do
  return (← (← Eval.load counter).asInt).slt last

def forRun (inner : Env) (counter : Place) (last : BitVec 64) (body : List IrStmt) :
    Eval ω (Option Flow) := do
  let current ← (← Eval.load counter).asInt
  if current.slt last then
    match ← execStmts structs callee fuel inner body with
    | .next => do
        let reached ← (← Eval.load counter).asInt
        Eval.store counter (.int (reached + 1))
        return none
    | .returned value => return some (.returned value)
  else return some .next

/-! What a run executes, the first statement first. -/

/-- The rounds of `iterate`. -/
def roundsTrace (body : Eval ω (Option Flow)) (trace : State ω → List Executed) :
    Nat → State ω → List Executed
  | 0, _ => []
  | fuel + 1, state =>
      trace state ++ match body state with
        | .ok none middle => roundsTrace body trace fuel middle
        | _ => []

mutual

def stmtTrace (env : Env) : IrStmt → State ω → List Executed
  | .returnStmt _, _ => []
  | .zone zoneName body, state =>
      match enterRun env zoneName state with
      | .ok inner entered => .entered :: blockTrace inner body entered
      | _ => []
  | .ifStmt condition thenBlock elseBlock, state =>
      match testRun structs callee env condition state with
      | .ok true entered => blockTrace env.push thenBlock entered
      | .ok false entered => elseTrace env elseBlock entered
      | _ => []
  | .whileStmt condition body, state =>
      roundsTrace (whileRun structs callee fuel env condition body) (fun start =>
        match testRun structs callee env condition start with
        | .ok true entered => blockTrace env.push body entered
        | _ => []) fuel state
  | .loop body, state =>
      roundsTrace (loopRun structs callee fuel env body) (fun start =>
        blockTrace env.push body start) fuel state
  | .forStmt name _ start stop body, state =>
      match boundsRun structs callee env start stop state with
      | .ok (counter, last) ready =>
          roundsTrace (forRun structs callee fuel (env.push.define name counter.cell).push counter
            last body) (fun start =>
              match counterRun counter last start with
              | .ok true entered => blockTrace (env.push.define name counter.cell).push body entered
              | _ => []) fuel ready
      | _ => []
  | statement, _ => [.ran statement]

def elseTrace (env : Env) : Option (List IrStmt) → State ω → List Executed
  | none, _ => []
  | some block, state => blockTrace env.push block state

def blockTrace (env : Env) : List IrStmt → State ω → List Executed
  | [], _ => []
  | statement :: rest, state =>
      stmtTrace env statement state ++
        match execStmt structs callee fuel env statement state with
        | .ok (later, .next) middle => blockTrace later rest middle
        | _ => []

end

end

def flowExit : Flow → Exit
  | .next => .next
  | .returned _ => .returned

/-- A path leaves this way and executes these statements, wherever it starts. -/
def Leads (paths : Paths Nat Event) (exit : Exit) (trace : List Executed) : Prop :=
  ∀ before, ∃ events after, paths before events exit after ∧ events.map Event.executed = trace

section Leads

variable {paths : Paths Nat Event} {trace early late : List Executed}

theorem Leads.seq_next {first second : Paths Nat Event} {exit : Exit}
    (hfirst : Leads first .next early) (hsecond : Leads second exit late) :
    Leads (Seq first second) exit (early ++ late) := by
  intro before
  obtain ⟨events, middle, hearly, rfl⟩ := hfirst before
  obtain ⟨more, after, hlate, rfl⟩ := hsecond middle
  exact ⟨events ++ more, after, .next hearly hlate, List.map_append⟩

theorem Leads.seq_returned {first second : Paths Nat Event} (hfirst : Leads first .returned trace) :
    Leads (Seq first second) .returned trace := by
  intro before
  obtain ⟨events, after, hpath, htrace⟩ := hfirst before
  exact ⟨events, after, .returned hpath, htrace⟩

theorem Leads.stop : Leads (Rounds paths) .next [] :=
  fun before => ⟨[], before, .stop, rfl⟩

theorem Leads.rounds_returned (hreturned : Leads paths .returned trace) :
    Leads (Rounds paths) .returned trace := by
  intro before
  obtain ⟨events, after, hpath, htrace⟩ := hreturned before
  exact ⟨events, after, .returned hpath, htrace⟩

theorem Leads.round {exit : Exit} (hnext : Leads paths .next early)
    (hrest : Leads (Rounds paths) exit late) : Leads (Rounds paths) exit (early ++ late) := by
  intro before
  obtain ⟨events, middle, hearly, rfl⟩ := hnext before
  obtain ⟨more, after, hlate, rfl⟩ := hrest middle
  exact ⟨events ++ more, after, .round hearly hlate, List.map_append⟩

theorem Leads.skip : Leads Library.Paths.skip .next [] :=
  fun before => ⟨[], before, ⟨rfl, rfl, rfl⟩, rfl⟩

theorem Leads.step (statement : IrStmt) (released : Option Nat) :
    Leads (Library.Paths.step (.ran statement released)) .next [.ran statement] :=
  fun before => ⟨[.ran statement released], before, ⟨rfl, rfl, rfl⟩, rfl⟩

end Leads

/-- What a round of a loop tells of the paths through the body. -/
def RoundLeads (paths : Paths Nat Event) (trace : List Executed) : Option Flow → Prop
  | none => Leads paths .next trace
  | some .next => trace = []
  | some (.returned _) => Leads paths .returned trace

theorem roundLeads_again {paths : Paths Nat Event} {trace : List Executed} {flow : Flow}
    (hflow : Leads paths (flowExit flow) trace) : RoundLeads paths trace flow.again := by
  cases flow with
  | next => exact hflow
  | returned value => exact hflow

theorem iterate_leads {paths : Paths Nat Event} {body : Eval ω (Option Flow)}
    {trace : State ω → List Executed}
    (hbody : ∀ state result after, body state = .ok result after →
      RoundLeads paths (trace state) result)
    (fuel : Nat) : ∀ state flow after, iterate body fuel state = .ok flow after →
      Leads (Rounds paths) (flowExit flow) (roundsTrace body trace fuel state) := by
  induction fuel with
  | zero => exact fun _ _ _ hrun => nomatch hrun
  | succ fuel ih =>
      intro state flow after hrun
      rw [iterate, bind_eq_ok] at hrun
      obtain ⟨result, middle, hround, hrun⟩ := hrun
      have hleads := hbody state result middle hround
      rw [roundsTrace, hround]
      cases result with
      | none => exact .round hleads (ih _ _ _ hrun)
      | some found =>
          obtain ⟨rfl, -⟩ := pure_eq_ok.mp hrun
          dsimp only
          rw [List.append_nil]
          cases found with
          | next =>
              rw [show trace state = [] from hleads]
              exact .stop
          | returned value => exact .rounds_returned hleads

section Exec

variable {structs : StructTable} {callee : Callee ω} {fuel : Nat}

mutual

theorem execStmt_leads (zoneEnv : ZoneEnv) : ∀ (statement : IrStmt) (env : Env)
    (state : State ω) (result : Env × Flow) (after : State ω),
    execStmt structs callee fuel env statement state = .ok result after →
    Leads (stmtPaths zoneEnv statement) (flowExit result.2)
      (stmtTrace structs callee fuel env statement state)
  | .letStmt name _ _ initializer, env, state, result, after, hrun => by
      simp only [execStmt, bind_eq_ok, pure_eq_ok] at hrun
      obtain ⟨value, _, -, place, _, -, rfl, -⟩ := hrun
      exact .step _ _
  | .assign target value, env, state, result, after, hrun => by
      rw [execStmt] at hrun
      split at hrun
      all_goals
        simp only [bind_eq_ok, pure_eq_ok] at hrun
        obtain ⟨place, _, -, stored, _, -, _, _, -, rfl, -⟩ := hrun
        exact .step _ _
  | .returnStmt value, env, state, result, after, hrun => by
      simp only [execStmt, bind_eq_ok, pure_eq_ok] at hrun
      obtain ⟨found, _, -, rfl, -⟩ := hrun
      exact fun before => ⟨[], before, ⟨rfl, rfl, rfl⟩, rfl⟩
  | .expr value, env, state, result, after, hrun => by
      simp only [execStmt, bind_eq_ok, pure_eq_ok] at hrun
      obtain ⟨_, _, -, rfl, -⟩ := hrun
      exact .step _ _
  | .free value, env, state, result, after, hrun => by
      simp only [execStmt, bind_eq_ok, pure_eq_ok] at hrun
      obtain ⟨_, _, -, _, _, -, rfl, -⟩ := hrun
      exact .step _ _
  | .zone zoneName body, env, state, result, after, hrun => by
      simp only [execStmt, bind_eq_ok, pure_eq_ok] at hrun
      obtain ⟨handle, opened, henter, place, entered, hallocate, flow, _, hbody, rfl, -⟩ := hrun
      have hentry : enterRun env zoneName state =
          .ok ((env.push.define zoneName place.cell).push) entered :=
        bind_eq_ok.mpr ⟨handle, opened, henter, bind_eq_ok.mpr ⟨place, entered, hallocate, rfl⟩⟩
      intro before
      obtain ⟨events, stop, hpath, htrace⟩ :=
        execStmts_leads ((zoneName, some before) :: zoneEnv) body _ _ _ _ hbody (before + 1)
      refine ⟨_, stop, ⟨events, rfl, hpath⟩, ?_⟩
      rw [stmtTrace, hentry, List.map_cons, htrace]
      rfl
  | .ifStmt condition thenBlock elseBlock, env, state, result, after, hrun => by
      simp only [execStmt, bind_eq_ok] at hrun
      obtain ⟨value, middle, hvalue, test, entered, htest, hrun⟩ := hrun
      have hrunTest : testRun structs callee env condition state = .ok test entered :=
        bind_eq_ok.mpr ⟨value, middle, hvalue, htest⟩
      intro before
      rw [stmtTrace, hrunTest]
      cases test with
      | true =>
          simp only [if_true, bind_eq_ok, pure_eq_ok] at hrun
          obtain ⟨flow, _, hflow, rfl, -⟩ := hrun
          obtain ⟨events, stop, hpath, htrace⟩ :=
            execStmts_leads zoneEnv thenBlock _ _ _ _ hflow before
          exact ⟨events, stop, .inl hpath, htrace⟩
      | false =>
          simp only [Bool.false_eq_true, if_false, bind_eq_ok, pure_eq_ok] at hrun
          obtain ⟨flow, _, hflow, rfl, -⟩ := hrun
          obtain ⟨events, stop, hpath, htrace⟩ :=
            execElse_leads zoneEnv elseBlock _ _ _ _ hflow before
          exact ⟨events, stop, .inr hpath, htrace⟩
  | .whileStmt condition body, env, state, result, after, hrun => by
      simp only [execStmt] at hrun
      rw [bind_eq_ok] at hrun
      obtain ⟨flow, _, hloop, hrun⟩ := hrun
      obtain ⟨rfl, -⟩ := pure_eq_ok.mp hrun
      rw [stmtTrace]
      refine @iterate_leads _ _ (whileRun structs callee fuel env condition body) _
        (fun start found after hround => ?_) fuel _ _ _ hloop
      obtain ⟨value, middle, hvalue, hround⟩ := bind_eq_ok.mp hround
      obtain ⟨test, entered, htest, hround⟩ := bind_eq_ok.mp hround
      have hrunTest : testRun structs callee env condition start = .ok test entered :=
        bind_eq_ok.mpr ⟨value, middle, hvalue, htest⟩
      rw [hrunTest]
      cases test with
      | true =>
          simp only [if_true, bind_eq_ok, pure_eq_ok] at hround
          obtain ⟨flow, _, hbody, rfl, -⟩ := hround
          exact roundLeads_again (execStmts_leads zoneEnv body _ _ _ _ hbody)
      | false =>
          obtain ⟨rfl, -⟩ := pure_eq_ok.mp hround
          rfl
  | .loop body, env, state, result, after, hrun => by
      simp only [execStmt] at hrun
      rw [bind_eq_ok] at hrun
      obtain ⟨flow, _, hloop, hrun⟩ := hrun
      obtain ⟨rfl, -⟩ := pure_eq_ok.mp hrun
      rw [stmtTrace]
      refine @iterate_leads _ _ (loopRun structs callee fuel env body) _
        (fun start found after hround => ?_) fuel _ _ _ hloop
      obtain ⟨flow, _, hbody, hround⟩ := bind_eq_ok.mp hround
      obtain ⟨rfl, -⟩ := pure_eq_ok.mp hround
      exact roundLeads_again (execStmts_leads zoneEnv body _ _ _ _ hbody)
  | .forStmt name _ start stop body, env, state, result, after, hrun => by
      simp only [execStmt] at hrun
      simp only [bind_eq_ok, pure_eq_ok] at hrun
      obtain ⟨first, s1, hfirst, bound, s2, hbound, last, s3, hlast, counter, ready, hcounter, flow,
        _, hloop, rfl, -⟩ := hrun
      have hbounds : boundsRun structs callee env start stop state = .ok (counter, last) ready :=
        bind_eq_ok.mpr ⟨first, s1, hfirst, bind_eq_ok.mpr ⟨bound, s2, hbound,
          bind_eq_ok.mpr ⟨last, s3, hlast, bind_eq_ok.mpr ⟨counter, ready, hcounter, rfl⟩⟩⟩⟩
      rw [stmtTrace, hbounds]
      dsimp only
      refine @iterate_leads _ _ (forRun structs callee fuel
        ((env.push.define name counter.cell).push) counter last body) _
        (fun begun found after hround => ?_) fuel _ _ _ hloop
      obtain ⟨value, middle, hvalue, hround⟩ := bind_eq_ok.mp hround
      obtain ⟨current, entered, hcurrent, hround⟩ := bind_eq_ok.mp hround
      have htest : counterRun counter last begun = .ok (current.slt last) entered :=
        bind_eq_ok.mpr ⟨value, middle, hvalue, bind_eq_ok.mpr ⟨current, entered, hcurrent, rfl⟩⟩
      rw [htest]
      cases hless : current.slt last with
      | true =>
          rw [if_pos hless] at hround
          rw [bind_eq_ok] at hround
          obtain ⟨flow, _, hbody, hround⟩ := hround
          have hleads := execStmts_leads ((name, none) :: zoneEnv) body _ _ _ _ hbody
          cases flow with
          | next =>
              simp only [bind_eq_ok, pure_eq_ok] at hround
              obtain ⟨_, _, -, _, _, -, _, _, -, rfl, -⟩ := hround
              exact hleads
          | returned value =>
              obtain ⟨rfl, -⟩ := pure_eq_ok.mp hround
              exact hleads
      | false =>
          rw [if_neg (by simp [hless])] at hround
          obtain ⟨rfl, -⟩ := pure_eq_ok.mp hround
          rfl

theorem execElse_leads (zoneEnv : ZoneEnv) : ∀ (elseBlock : Option (List IrStmt)) (env : Env)
    (state : State ω) (flow : Flow) (after : State ω),
    execElse structs callee fuel env elseBlock state = .ok flow after →
    Leads (elsePaths zoneEnv elseBlock) (flowExit flow)
      (elseTrace structs callee fuel env elseBlock state)
  | none, env, state, flow, after, hrun => by
      obtain ⟨rfl, -⟩ := pure_eq_ok.mp hrun
      exact .skip
  | some block, env, state, flow, after, hrun =>
      execStmts_leads zoneEnv block _ _ _ _ hrun

theorem execStmts_leads (zoneEnv : ZoneEnv) : ∀ (block : List IrStmt) (env : Env)
    (state : State ω) (flow : Flow) (after : State ω),
    execStmts structs callee fuel env block state = .ok flow after →
    Leads (blockPaths zoneEnv block) (flowExit flow)
      (blockTrace structs callee fuel env block state)
  | [], env, state, flow, after, hrun => by
      obtain ⟨rfl, -⟩ := pure_eq_ok.mp hrun
      exact .skip
  | statement :: rest, env, state, flow, after, hrun => by
      rw [execStmts, bind_eq_ok] at hrun
      obtain ⟨⟨inner, first⟩, middle, hfirst, hrun⟩ := hrun
      have hstatement := execStmt_leads zoneEnv statement _ _ _ _ hfirst
      rw [blockTrace, hfirst]
      cases first with
      | next => exact .seq_next hstatement (execStmts_leads _ rest _ _ _ _ hrun)
      | returned value =>
          obtain ⟨rfl, -⟩ := pure_eq_ok.mp hrun
          dsimp only
          rw [List.append_nil]
          exact .seq_returned hstatement

end

end Exec

end Cleanup

end Cnegative
