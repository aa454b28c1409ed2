import Cnegative.Backend.Express

namespace Cnegative

open Library (Line Code Chain Frame)

open Scalar (Oracle Outside Outcome Store Local)

namespace Scalar.Outcome

variable {ω : Type}

def isNext : Outcome ω → Bool
  | .next _ _ => true
  | .returned _ _ => false

@[simp] theorem isNext_leave (outcome : Outcome ω) : outcome.leave.isNext = outcome.isNext := by
  cases outcome <;> rfl

end Scalar.Outcome

namespace Llvm

variable {ω : Type}

/-! Where the run of a statement comes to. -/

theorem Joint.layout_eq_cons {joint joint' : Joint} {name : Name} {entry : Entry}
    (hlayout : joint'.layout = Joint.layout ((name, entry) :: joint)) :
    ∃ entry' joint'', joint' = (name, entry') :: joint'' ∧
      (entry.isMutable = false → entry' = entry) ∧ Joint.layout joint'' = joint.layout := by
  cases joint' with
  | nil => cases hlayout
  | cons first rest =>
      obtain ⟨name', entry'⟩ := first
      simp only [layout, List.map_cons, List.cons.injEq, Prod.map_apply, id_eq,
        Prod.mk.injEq] at hlayout
      obtain ⟨⟨rfl, htype, hmutable, hregister, hslot, hvalue⟩, hrest⟩ := hlayout
      refine ⟨entry', rest, rfl, fun himmutable => ?_, hrest⟩
      obtain ⟨type, isMutable, register, slot, value⟩ := entry
      obtain ⟨type', isMutable', register', slot', value'⟩ := entry'
      simp only at htype hmutable hregister hslot himmutable hvalue
      subst htype hmutable hregister hslot himmutable
      simpa using hvalue

theorem Held.of_layout {joint joint' : Joint} {bound bound' : Nat} {machine machine' : Machine ω}
    (hheld : Held joint' bound' machine') (hlayout : joint'.layout = joint.layout)
    (hbelow : Held joint bound machine) : Held joint' bound machine' where
  below entry hentry := by
    have hmap := congrArg (List.map
      fun entry : Name × TypeRef × Bool × Nat × Nat × Option Value => entry.2.2.2.1) hlayout
    rw [Joint.layout, Joint.layout, List.map_map, List.map_map] at hmap
    have hmem : entry.2.register ∈ joint.map fun entry => entry.2.register :=
      (show _ = joint.map fun entry => entry.2.register from hmap) ▸
        List.mem_map_of_mem (f := fun entry : Name × Entry => entry.2.register) hentry
    obtain ⟨other, hother, heq⟩ := List.mem_map.mp hmem
    rw [← heq]
    exact hbelow.below other hother
  register := hheld.register
  memory := hheld.memory
  hasType := hheld.hasType
  apart := hheld.apart

section

variable (oracle : Oracle ω) (arguments : List Value) (whole : Code Inst) (returnType : TypeRef)

/-- A run that comes to `rest`, with the locals where they were. -/
structure Behind (slots : List Nat) (joint : Joint) (bound : Nat) (rest : Code Inst)
    (start : Config ω) (joint' : Joint) (machine' : Machine ω) : Prop where
  reaches : Reaches oracle arguments whole start (rest, machine')
  spares : Spares slots bound start.2 machine'
  held : Held joint' bound machine'
  layout : joint'.layout = joint.layout

/-- The run comes to `rest` where the source goes on, and to a `ret` where it returns a value of
the function's type. -/
def Arrives (slots : List Nat) (joint : Joint) (bound : Nat) (rest : Code Inst)
    (start : Config ω) : Outcome ω → Prop
  | .next store outside => ∃ joint' machine',
      Behind oracle arguments whole slots joint bound rest start joint' machine' ∧
        joint'.store = store ∧ machine'.outside = outside
  | .returned value outside => value.HasType returnType ∧ ∃ after,
      Reaches oracle arguments whole start after ∧ returned? after = some value ∧
        after.2.outside = outside

/-- What the emitter prints goes where the source goes, and its result is `result`. -/
def Simulates {α : Type} (joint : Joint) (machine : Machine ω) (emitter : Emit α) (result : α)
    (outcome : Outcome ω) : Prop :=
  ∀ ⦃state after : EmitState⦄ ⦃a : α⦄ ⦃code before rest : Code Inst⦄,
    state.terminated = false → Held joint state.nextTemp machine →
      emitter state = some (a, code, after) → whole = before ++ (code ++ rest) →
        a = result ∧ (outcome.isNext = true → after.terminated = false) ∧
          Arrives oracle arguments whole returnType joint.slots joint state.nextTemp rest
            (code ++ rest, machine) outcome

end

variable {oracle : Oracle ω} {arguments : List Value} {whole : Code Inst} {returnType : TypeRef}
  {slots slots' : List Nat} {joint joint' : Joint} {bound bound' : Nat} {rest middle : Code Inst}
  {start : Config ω} {machine machine' : Machine ω} {outcome : Outcome ω}

theorem Behind.arrives
    (hbehind : Behind oracle arguments whole slots joint bound middle start joint' machine')
    (harrives : Arrives oracle arguments whole returnType slots' joint' bound' rest
      (middle, machine') outcome)
    (hle : bound ≤ bound')
    (hslots : ∀ slot ∈ slots', slot < start.2.memory.length → slot ∈ slots) :
    Arrives oracle arguments whole returnType slots joint bound rest start outcome := by
  cases outcome with
  | next store outside =>
      obtain ⟨joint'', machine'', hbehind', hstore, houtside⟩ := harrives
      exact ⟨joint'', machine'', ⟨hbehind.reaches.trans hbehind'.reaches,
        hbehind.spares.trans hbehind'.spares hle hslots,
        hbehind'.held.of_layout hbehind'.layout hbehind.held,
        hbehind'.layout.trans hbehind.layout⟩, hstore, houtside⟩
  | returned value outside =>
      obtain ⟨htype, after, hreaches, hreturned, houtside⟩ := harrives
      exact ⟨htype, after, hbehind.reaches.trans hreaches, hreturned, houtside⟩

/-- Code that leaves the locals alone, in front. -/
theorem Arrives.head {behind : Config ω} (hreaches : Reaches oracle arguments whole start behind)
    (hspares : Spares [] bound start.2 behind.2) (hle : bound ≤ bound')
    (hheld : Held joint bound start.2)
    (harrives : Arrives oracle arguments whole returnType slots joint bound' rest behind outcome) :
    Arrives oracle arguments whole returnType slots joint bound rest start outcome :=
  Behind.arrives ⟨hreaches, hspares.mono (Nat.le_refl _) (by simp),
    hheld.spares hspares (Nat.le_refl _), rfl⟩ harrives hle fun _ hslot _ => hslot

/-- A step that leaves the machine as it is, in front. -/
theorem Arrives.step {code code' : Code Inst} (hheld : Held joint bound machine)
    (hstep : Llvm.step oracle arguments whole (code, machine) = some (code', machine))
    (harrives : Arrives oracle arguments whole returnType slots joint bound rest
      (code', machine) outcome) :
    Arrives oracle arguments whole returnType slots joint bound rest (code, machine) outcome :=
  .head (.single hstep) .refl (Nat.le_refl _) hheld harrives

theorem Arrives.branch {test : LlvmValue} {truth : Bool} {thenLabel elseLabel : Nat}
    {more target : Code Inst} (hheld : Held joint bound machine)
    (htest : machine.operand test = some (.bool truth))
    (hfind : whole.findLabel (if truth then thenLabel else elseLabel) = some target)
    (harrives : Arrives oracle arguments whole returnType slots joint bound rest
      (target, machine) outcome) :
    Arrives oracle arguments whole returnType slots joint bound rest
      (.inst (.condBr test thenLabel elseLabel) :: more, machine) outcome := by
  refine .step hheld ?_ harrives
  simp [Llvm.step, htest, hfind]

/-- A jump behind, if the block is still open there. -/
theorem Arrives.jump {target : Nat} {state after : EmitState} {jump more : Code Inst}
    (harrives : Arrives oracle arguments whole returnType slots joint bound (jump ++ more)
      start outcome)
    (hopen : outcome.isNext = true → state.terminated = false)
    (hjump : emitBrIfOpen target state = some ((), jump, after))
    (hfind : whole.findLabel target = some rest) :
    Arrives oracle arguments whole returnType slots joint bound rest start outcome := by
  cases outcome with
  | returned => exact harrives
  | next store outside =>
      obtain ⟨joint', machine', hbehind, hstore, houtside⟩ := harrives
      simp only [emitBrIfOpen, emitBr, Emit.bind_eq_some, Emit.isTerminated_eq_some, hopen rfl,
        ↓existsAndEq, true_and, Bool.false_eq_true, if_false, Emit.terminate_eq_some] at hjump
      obtain ⟨_, ⟨rfl, -⟩, rfl⟩ := hjump
      have hstep : Llvm.step oracle arguments whole (.inst (.br target) :: more, machine') =
          some (rest, machine') := by
        simp [Llvm.step, hfind]
      exact hbehind.arrives (.step hbehind.held hstep ⟨joint', machine', ⟨.refl, .refl,
        hbehind.held, rfl⟩, hstore, houtside⟩) (Nat.le_refl _) fun _ hslot _ => hslot

/-- The newest local ends. -/
theorem Arrives.leave {name : Name} {entry : Entry}
    (harrives : Arrives oracle arguments whole returnType slots ((name, entry) :: joint)
      bound rest start
      outcome) :
    Arrives oracle arguments whole returnType slots joint bound rest start outcome.leave := by
  cases outcome with
  | returned => exact harrives
  | next store outside =>
      obtain ⟨joint', machine', hbehind, rfl, houtside⟩ := harrives
      obtain ⟨entry', joint'', rfl, -, hlayout⟩ := Joint.layout_eq_cons hbehind.layout
      exact ⟨joint'', machine', ⟨hbehind.reaches, hbehind.spares, hbehind.held.tail, hlayout⟩,
        rfl, houtside⟩

end Llvm

end Cnegative
