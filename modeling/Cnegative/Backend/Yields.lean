import Cnegative.Backend.Joint

namespace Cnegative

open Library (Line Code Chain Frame)

open Scalar (Oracle Outside Store Local)

open Typing (TypeEnv LocalType)

namespace Llvm

variable {ω : Type}

section

variable (oracle : Oracle ω) (arguments : List Value) (whole : Code Inst)

/-- A run through a piece of code. -/
structure Passes (code rest : Code Inst) (slots : List Nat) (bound : Nat)
    (before after : Machine ω) : Prop where
  reaches : Reaches oracle arguments whole (code ++ rest, before) (rest, after)
  spares : Spares slots bound before after

/-- What `emitter` prints runs to its end, with a result as `post` says. -/
def Yields {α : Type} (state : EmitState) (machine : Machine ω) (emitter : Emit α)
    (post : Machine ω → Nat → α → Prop) : Prop :=
  ∀ ⦃after : EmitState⦄ ⦃a : α⦄ ⦃code before rest : Code Inst⦄,
    emitter state = some (a, code, after) → whole = before ++ (code ++ rest) →
      after.terminated = false ∧ state.nextTemp ≤ after.nextTemp ∧
        ∃ machine', Passes oracle arguments whole code rest [] state.nextTemp machine machine' ∧
          post machine' after.nextTemp a

/-- The value that is held, and the world behind. -/
def Value.post (found : Value) (type : TypeRef) (outside : Outside ω) (machine : Machine ω)
    (bound : Nat) (value : LlvmValue) : Prop :=
  Holds machine bound value found type ∧ machine.outside = outside

end

section

variable {oracle : Oracle ω} {arguments : List Value} {whole : Code Inst}

namespace Passes

variable {code code' rest : Code Inst} {slots slots' : List Nat} {bound bound' : Nat}
  {before middle after : Machine ω}

theorem nil : Passes oracle arguments whole [] rest slots bound before before :=
  ⟨.refl, .refl⟩

theorem append (hfirst : Passes oracle arguments whole code (code' ++ rest) slots bound before middle)
    (hsecond : Passes oracle arguments whole code' rest slots' bound' middle after)
    (hle : bound ≤ bound') (hslots : ∀ slot ∈ slots', slot < before.memory.length → slot ∈ slots) :
    Passes oracle arguments whole (code ++ code') rest slots bound before after where
  reaches := by
    rw [List.append_assoc]
    exact hfirst.reaches.trans hsecond.reaches
  spares := hfirst.spares.trans hsecond.spares hle hslots

end Passes

theorem step_inst {inst : Inst} {rest : Code Inst} {machine : Machine ω}
    (hopen : inst.isTerminator = false) :
    step oracle arguments whole (.inst inst :: rest, machine) =
      (execute oracle arguments machine inst).map fun after => (rest, after) := by
  cases inst <;> first | rfl | cases hopen

theorem Passes.inst {inst : Inst} {rest : Code Inst} {slots : List Nat} {bound : Nat}
    {before after : Machine ω} (hopen : inst.isTerminator = false)
    (hexecute : execute oracle arguments before inst = some after)
    (hspares : Spares slots bound before after) :
    Passes oracle arguments whole [.inst inst] rest slots bound before after where
  reaches := .single (by
    change step oracle arguments whole (.inst inst :: rest, before) = _
    rw [step_inst hopen, hexecute]
    rfl)
  spares := hspares

namespace Yields

variable {α β : Type} {state : EmitState} {machine : Machine ω}

theorem pure {a : α} {post : Machine ω → Nat → α → Prop} (hopen : state.terminated = false)
    (hpost : post machine state.nextTemp a) :
    Yields oracle arguments whole state machine (pure a) post := by
  intro after b code before rest hrun _
  obtain ⟨rfl, rfl, rfl⟩ := Emit.pure_eq_some.mp hrun
  exact ⟨hopen, Nat.le_refl _, machine, .nil, hpost⟩

theorem fail {post : Machine ω → Nat → α → Prop} :
    Yields oracle arguments whole state machine Emit.fail post := by
  intro after a code before rest hrun
  exact (Emit.fail_eq_some.mp hrun).elim

theorem ofOption {option : Option α} {post : Machine ω → Nat → α → Prop}
    (hopen : state.terminated = false)
    (hpost : ∀ a, option = some a → post machine state.nextTemp a) :
    Yields oracle arguments whole state machine (Emit.ofOption option) post := by
  intro after a code before rest hrun _
  obtain ⟨hsome, rfl, rfl⟩ := Emit.ofOption_eq_some.mp hrun
  exact ⟨hopen, Nat.le_refl _, machine, .nil, hpost a hsome⟩

theorem bind {first : Emit α} {next : α → Emit β} {post : Machine ω → Nat → α → Prop}
    {post' : Machine ω → Nat → β → Prop}
    (hfirst : Yields oracle arguments whole state machine first post)
    (hnext : ∀ middle machine' a, middle.terminated = false → state.nextTemp ≤ middle.nextTemp →
      Spares [] state.nextTemp machine machine' → post machine' middle.nextTemp a →
        Yields oracle arguments whole middle machine' (next a) post') :
    Yields oracle arguments whole state machine (first >>= next) post' := by
  intro after b code before rest hrun hwhole
  obtain ⟨a, firstCode, middle, nextCode, hfirstRun, hnextRun, rfl⟩ := Emit.bind_eq_some.mp hrun
  obtain ⟨hopen, hle, machine', hpasses, hpost⟩ := hfirst hfirstRun
    (hwhole.trans (by rw [List.append_assoc]))
  obtain ⟨hopen', hle', machine'', hpasses', hpost'⟩ :=
    hnext middle machine' a hopen hle hpasses.spares hpost hnextRun
      (hwhole.trans (by rw [List.append_assoc, List.append_assoc]))
  exact ⟨hopen', Nat.le_trans hle hle', machine'', hpasses.append hpasses' hle (by simp), hpost'⟩

/-- The same with what holds in between. -/
theorem through {first : Emit α} {next : α → Emit β} {post' : Machine ω → Nat → β → Prop}
    (post : Machine ω → Nat → α → Prop)
    (hfirst : Yields oracle arguments whole state machine first post)
    (hnext : ∀ middle machine' a, middle.terminated = false → state.nextTemp ≤ middle.nextTemp →
      Spares [] state.nextTemp machine machine' → post machine' middle.nextTemp a →
        Yields oracle arguments whole middle machine' (next a) post') :
    Yields oracle arguments whole state machine (first >>= next) post' :=
  bind hfirst hnext

/-- An instruction whose result takes the next register. -/
theorem result {inst : Nat → Inst} {machine' : Machine ω} {post : Machine ω → Nat → Nat → Prop}
    (hstate : state.terminated = false) (hopen : ∀ id, (inst id).isTerminator = false)
    (hexecute : execute oracle arguments machine (inst state.nextTemp) = some machine')
    (hspares : Spares [] state.nextTemp machine machine')
    (hpost : post machine' (state.nextTemp + 1) state.nextTemp) :
    Yields oracle arguments whole state machine (Emit.result inst) post := by
  intro after id code before rest hrun _
  obtain ⟨rfl, rfl, rfl⟩ := Emit.result_eq_some.mp hrun
  exact ⟨hstate, Nat.le_succ _, machine', .inst (hopen _) hexecute hspares, hpost⟩

/-- The same for a value. -/
theorem register {type : TypeRef} {inst : Nat → Inst} {found : Value}
    (hstate : state.terminated = false) (hopen : ∀ id, (inst id).isTerminator = false)
    (hexecute : execute oracle arguments machine (inst state.nextTemp) =
      some (machine.write state.nextTemp found)) (htype : found.HasType type) :
    Yields oracle arguments whole state machine
      (do return LlvmValue.register type (← Emit.result inst))
      (Value.post found type machine.outside) := by
  refine through (fun machine' bound id => machine' = machine.write id found ∧ bound = id + 1)
    (.result hstate hopen hexecute (.write (Nat.le_refl _) _) ⟨rfl, rfl⟩) ?_
  rintro middle machine' id hopen' - - ⟨rfl, hbound⟩
  refine .pure hopen' ⟨?_, rfl⟩
  rw [hbound]
  exact .written htype

end Yields

end

end Llvm

end Cnegative
