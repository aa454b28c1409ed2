import Mathlib.Logic.Relation
import Cnegative.Semantics.Temporaries

namespace Cnegative

namespace Semantics

open Library (Chain)
open Library.Runs
open Relation (ReflTransGen)

variable {ω : Type}

/-! The statements that a run comes to. -/

section

variable (structs : StructTable) (callee : Callee ω) (fuel : Nat)

/-! A round of a loop, from its start to the start of the next. -/

def LoopRound (env : Env) (body : List IrStmt) (state after : State ω) : Prop :=
  execStmts structs callee fuel env.push body state = .ok .next after

def WhileRound (env : Env) (condition : IrExpr) (body : List IrStmt) (state after : State ω) :
    Prop :=
  ∃ entered, (denote structs callee env condition).value state = .ok (.bool true) entered ∧
    LoopRound structs callee fuel env body entered after

def ForRound (inner : Env) (counter : Place) (body : List IrStmt) (state after : State ω) : Prop :=
  ∃ (left : State ω) (reached : BitVec 64),
    execStmts structs callee fuel inner body state = .ok .next left ∧
      Eval.load counter left = .ok (.int reached) left ∧
      Eval.store counter (.int (reached + 1)) left = .ok () after

inductive Enters : Env → State ω → IrStmt → Env → State ω → List IrStmt → Prop
  | zone {env : Env} {state opened entered : State ω} {zoneName : Name} {body : List IrStmt}
      {handle : Nat} {place : Place} :
      Eval.enterZone state = .ok handle opened →
      Eval.allocate .stack (.zone handle) opened = .ok place entered →
        Enters env state (.zone zoneName body) ((env.push.define zoneName place.cell).push) entered
          body
  | thenBlock {env : Env} {state entered : State ω} {condition : IrExpr}
      {thenBlock : List IrStmt} {elseBlock : Option (List IrStmt)} :
      (denote structs callee env condition).value state = .ok (.bool true) entered →
        Enters env state (.ifStmt condition thenBlock elseBlock) env.push entered thenBlock
  | elseBlock {env : Env} {state entered : State ω} {condition : IrExpr}
      {thenBlock elseBlock : List IrStmt} :
      (denote structs callee env condition).value state = .ok (.bool false) entered →
        Enters env state (.ifStmt condition thenBlock (some elseBlock)) env.push entered elseBlock
  | whileStmt {env : Env} {state start entered : State ω} {condition : IrExpr}
      {body : List IrStmt} :
      ReflTransGen (WhileRound structs callee fuel env condition body) state start →
      (denote structs callee env condition).value start = .ok (.bool true) entered →
        Enters env state (.whileStmt condition body) env.push entered body
  | loop {env : Env} {state entered : State ω} {body : List IrStmt} :
      ReflTransGen (LoopRound structs callee fuel env body) state entered →
        Enters env state (.loop body) env.push entered body
  | forStmt {env : Env} {state middle last ready entered : State ω} {name : Name} {type : TypeRef}
      {start stop : IrExpr} {body : List IrStmt} {first bound : Value} {counter : Place} :
      (denote structs callee env start).value state = .ok first middle →
      (denote structs callee env stop).value middle = .ok bound last →
      Eval.allocate .stack first last = .ok counter ready →
      ReflTransGen (ForRound structs callee fuel ((env.push.define name counter.cell).push) counter
        body) ready entered →
        Enters env state (.forStmt name type start stop body)
          ((env.push.define name counter.cell).push) entered body

/-- The run of a block comes to a statement, with the scope and the state it comes there with. -/
inductive Visits : Env → State ω → List IrStmt → Env → State ω → IrStmt → Prop
  | here {env : Env} {state : State ω} {statement : IrStmt} {rest : List IrStmt} :
      Visits env state (statement :: rest) env state statement
  | behind {env later found : Env} {state middle reached : State ω} {first statement : IrStmt}
      {rest : List IrStmt} :
      execStmt structs callee fuel env first state = .ok (later, .next) middle →
      Visits later middle rest found reached statement →
        Visits env state (first :: rest) found reached statement
  | inside {env inner found : Env} {state entered reached : State ω} {first statement : IrStmt}
      {block rest : List IrStmt} :
      Enters structs callee fuel env state first inner entered block →
      Visits inner entered block found reached statement →
        Visits env state (first :: rest) found reached statement

end

def Env.Allocated (env : Env) (state : State ω) : Prop :=
  ∀ name found, Chain.find? env name = some found → found.2 < state.cells.length

namespace Env.Allocated

variable {env : Env} {state after : State ω}

theorem later (henv : env.Allocated state) (hretires : state.Retires after) :
    env.Allocated after :=
  fun name found hfound => Nat.lt_of_lt_of_le (henv name found hfound) hretires.length_le

theorem push (henv : env.Allocated state) : env.push.Allocated state :=
  fun name found hfound => henv name found (Env.find?_push ▸ hfound)

theorem define (henv : env.Allocated state) {storage : Storage} {value : Value} {place : Place}
    (hallocate : Eval.allocate storage value state = .ok place after) (name : Name) :
    (env.define name place.cell).Allocated after := by
  have hretires : state.Retires after := keeps_allocate storage value _ _ _ hallocate
  obtain ⟨rfl, rfl⟩ := allocate_eq_ok hallocate
  intro other found hfound
  rcases Env.find?_define hfound with hsame | hold
  · rw [hsame, State.allocate, List.length_append]
    exact Nat.lt_succ_self _
  · exact henv.later hretires other found hold

end Env.Allocated

section

variable {structs : StructTable} {callee : Callee ω} {fuel : Nat}

/-! Memory only grows, and what is bound has a cell. -/

theorem retires_value (hcallee : callee.Keeps State.Retires) {env : Env} (expression : IrExpr) :
    Keeps State.Retires (denote structs callee env expression).value :=
  (keeps_denote (keeps_evalCall hcallee) expression).value

theorem retires_execStmts (hcallee : callee.Keeps State.Retires) {env : Env}
    (block : List IrStmt) : Keeps State.Retires (execStmts structs callee fuel env block) :=
  fun _ _ _ hrun => ((keepsRules State.Retires).allows_execStmts hcallee.allows block env
    (fun _ _ _ _ _ => trivial) _ _ _ hrun).1

theorem retires_execStmt (hcallee : callee.Keeps State.Retires) {env : Env}
    (statement : IrStmt) : Keeps State.Retires (execStmt structs callee fuel env statement) :=
  fun _ _ _ hrun => ((keepsRules State.Retires).allows_execStmt hcallee.allows statement env
    (fun _ _ _ _ _ => trivial) _ _ _ hrun).1

theorem retires_rounds {round : State ω → State ω → Prop}
    (hround : ∀ {state after}, round state after → state.Retires after) {state after : State ω}
    (hrounds : ReflTransGen round state after) : state.Retires after := by
  induction hrounds with
  | refl => exact Std.Refl.refl state
  | tail _ hlast ih => exact IsTrans.trans _ _ _ ih (hround hlast)

theorem LoopRound.retires (hcallee : callee.Keeps State.Retires) {env : Env} {body : List IrStmt}
    {state after : State ω} (hround : LoopRound structs callee fuel env body state after) :
    state.Retires after :=
  retires_execStmts hcallee body _ _ _ hround

theorem WhileRound.retires (hcallee : callee.Keeps State.Retires) {env : Env} {condition : IrExpr}
    {body : List IrStmt} {state after : State ω}
    (hround : WhileRound structs callee fuel env condition body state after) :
    state.Retires after := by
  obtain ⟨entered, htest, hbody⟩ := hround
  exact IsTrans.trans _ _ _ (retires_value hcallee condition _ _ _ htest) (hbody.retires hcallee)

theorem ForRound.retires (hcallee : callee.Keeps State.Retires) {inner : Env} {counter : Place}
    {body : List IrStmt} {state after : State ω}
    (hround : ForRound structs callee fuel inner counter body state after) :
    state.Retires after := by
  obtain ⟨left, reached, hbody, -, hstore⟩ := hround
  exact IsTrans.trans _ _ _ (retires_execStmts hcallee body _ _ _ hbody)
    (keeps_store counter _ _ _ _ hstore)

/-- A `let` alone changes the scope behind it. -/
theorem execStmt_scope {env later : Env} {statement : IrStmt} {state after : State ω} {flow : Flow}
    (hlet : ∀ name isMutable type value, statement ≠ .letStmt name isMutable type value)
    (hrun : execStmt structs callee fuel env statement state = .ok (later, flow) after) :
    later = env := by
  cases statement with
  | letStmt name isMutable type value => exact absurd rfl (hlet name isMutable type value)
  | assign target value =>
      rw [execStmt] at hrun
      split at hrun
      all_goals
        simp only [bind_eq_ok, pure_eq_ok, Prod.mk.injEq] at hrun
        obtain ⟨_, _, -, _, _, -, _, _, -, ⟨rfl, -⟩, -⟩ := hrun
        rfl
  | returnStmt value | expr value =>
      simp only [execStmt, bind_eq_ok, pure_eq_ok, Prod.mk.injEq] at hrun
      obtain ⟨_, _, -, ⟨rfl, -⟩, -⟩ := hrun
      rfl
  | free value =>
      simp only [execStmt, bind_eq_ok, pure_eq_ok, Prod.mk.injEq] at hrun
      obtain ⟨_, _, -, _, _, -, ⟨rfl, -⟩, -⟩ := hrun
      rfl
  | zone zoneName body =>
      simp only [execStmt, bind_eq_ok, pure_eq_ok, Prod.mk.injEq] at hrun
      obtain ⟨_, _, -, _, _, -, _, _, -, ⟨rfl, -⟩, -⟩ := hrun
      rfl
  | ifStmt condition thenBlock elseBlock =>
      simp only [execStmt, bind_eq_ok] at hrun
      obtain ⟨_, _, -, test, _, -, hrun⟩ := hrun
      split at hrun
      all_goals
        simp only [bind_eq_ok, pure_eq_ok, Prod.mk.injEq] at hrun
        obtain ⟨_, _, -, ⟨rfl, -⟩, -⟩ := hrun
        rfl
  | whileStmt condition body | loop body =>
      rw [execStmt, bind_eq_ok] at hrun
      obtain ⟨_, _, -, hend⟩ := hrun
      exact (Prod.mk.inj (pure_eq_ok.mp hend).1).1.symm
  | forStmt name type start stop body =>
      simp only [execStmt] at hrun
      simp only [bind_eq_ok, pure_eq_ok, Prod.mk.injEq] at hrun
      obtain ⟨_, _, -, _, _, -, _, _, -, _, _, -, _, _, -, ⟨rfl, -⟩, -⟩ := hrun
      rfl

theorem execStmt_allocated (hcallee : callee.Keeps State.Retires) {env later : Env}
    {statement : IrStmt} {state after : State ω} {flow : Flow} (henv : env.Allocated state)
    (hrun : execStmt structs callee fuel env statement state = .ok (later, flow) after) :
    later.Allocated after := by
  have hafter := henv.later (retires_execStmt hcallee statement _ _ _ hrun)
  cases statement with
  | letStmt name isMutable type initializer =>
      rw [execStmt] at hrun
      obtain ⟨value, middle, hvalue, hrun⟩ := bind_eq_ok.mp hrun
      obtain ⟨place, behind, hallocate, hend⟩ := bind_eq_ok.mp hrun
      obtain ⟨hsame, rfl⟩ := pure_eq_ok.mp hend
      obtain ⟨rfl, -⟩ := Prod.mk.inj hsame
      exact (henv.later (retires_value hcallee initializer _ _ _ hvalue)).define hallocate name
  | _ =>
      rw [execStmt_scope (by simp) hrun]
      exact hafter

theorem Enters.allocated (hcallee : callee.Keeps State.Retires) {env inner : Env}
    {statement : IrStmt} {block : List IrStmt} {state entered : State ω}
    (henv : env.Allocated state)
    (henters : Enters structs callee fuel env state statement inner entered block) :
    inner.Allocated entered := by
  cases henters with
  | zone henter hallocate =>
      exact (((henv.later (keeps_enterZone _ _ _ henter)).push).define hallocate _).push
  | thenBlock htest | elseBlock htest =>
      exact (henv.later (retires_value hcallee _ _ _ _ htest)).push
  | whileStmt hrounds htest =>
      have hstart := retires_rounds (WhileRound.retires hcallee) hrounds
      exact ((henv.later hstart).later (retires_value hcallee _ _ _ _ htest)).push
  | loop hrounds =>
      exact (henv.later (retires_rounds (LoopRound.retires hcallee) hrounds)).push
  | forStmt hfirst hbound hallocate hrounds =>
      have hlast := (henv.later (retires_value hcallee _ _ _ _ hfirst)).later
        (retires_value hcallee _ _ _ _ hbound)
      exact ((hlast.push.define hallocate _).push).later
        (retires_rounds (ForRound.retires hcallee) hrounds)

/-- Wherever the run comes to, the locals have cells. -/
theorem Visits.allocated (hcallee : callee.Keeps State.Retires) {env found : Env}
    {block : List IrStmt} {statement : IrStmt} {state reached : State ω}
    (henv : env.Allocated state)
    (hvisits : Visits structs callee fuel env state block found reached statement) :
    found.Allocated reached := by
  induction hvisits with
  | here => exact henv
  | behind hfirst _ ih => exact ih (execStmt_allocated hcallee henv hfirst)
  | inside henters _ ih => exact ih (henters.allocated hcallee henv)

end

theorem bindArguments_allocated (params : List Param) :
    ∀ {env bound : Env} {arguments : List Value} {state entered : State ω}, env.Allocated state →
      bindArguments env params arguments state = .ok bound entered → bound.Allocated entered := by
  induction params with
  | nil =>
      intro env bound arguments state entered henv hrun
      cases arguments with
      | nil =>
          obtain ⟨rfl, rfl⟩ := pure_eq_ok.mp hrun
          exact henv
      | cons argument rest => cases hrun
  | cons param params ih =>
      intro env bound arguments state entered henv hrun
      cases arguments with
      | nil => cases hrun
      | cons argument rest =>
          obtain ⟨place, middle, hallocate, hrest⟩ := bind_eq_ok.mp hrun
          exact ih (henv.define hallocate _) hrest

/-- A function starts with its parameters alone in scope. -/
theorem parameters_allocated {params : List Param} {bound : Env} {arguments : List Value}
    {state entered : State ω}
    (hrun : bindArguments (Env.push []) params arguments state = .ok bound entered) :
    bound.Allocated entered :=
  bindArguments_allocated params (fun _ _ hfound => by cases hfound) hrun

end Semantics

end Cnegative
