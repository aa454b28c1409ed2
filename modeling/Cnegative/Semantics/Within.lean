import Cnegative.Semantics.Keeps

namespace Cnegative

open Library.Runs
open Semantics (store?_eq_some)

variable {ω : Type}

/-! A run that gets by with a part of the memory goes the same way with all of it. -/

/-- What is live and open in the first state is so in the second one, with the same contents. -/
structure State.Within (small large : State ω) : Prop where
  length : small.cells.length = large.cells.length
  cell : ∀ {index : Nat} {cell : Cell}, small.cells[index]? = some cell → cell.live = true →
    large.cells[index]? = some cell
  zones : small.zones.length = large.zones.length
  isOpen : ∀ {handle : Nat}, small.zones[handle]? = some true → large.zones[handle]? = some true
  world : small.world = large.world

namespace State.Within

theorem refl (state : State ω) : state.Within state :=
  ⟨rfl, fun hcell _ => hcell, rfl, fun hopen => hopen, rfl⟩

theorem trans {first second third : State ω} (hfirst : first.Within second)
    (hsecond : second.Within third) : first.Within third where
  length := hfirst.length.trans hsecond.length
  cell hcell hlive := hsecond.cell (hfirst.cell hcell hlive) hlive
  zones := hfirst.zones.trans hsecond.zones
  isOpen hopen := hsecond.isOpen (hfirst.isOpen hopen)
  world := hfirst.world.trans hsecond.world

variable {small large : State ω}

theorem load? (hwithin : small.Within large) {place : Place} {value : Value}
    (hload : small.load? place = some value) : large.load? place = some value := by
  simp only [State.load?, Option.bind_eq_bind, Option.bind_eq_some_iff] at hload ⊢
  obtain ⟨cell, hcell, hvalue⟩ := hload
  split at hvalue
  · next hlive => exact ⟨cell, hwithin.cell hcell hlive, by rw [if_pos hlive, hvalue]⟩
  · cases hvalue

theorem allocate (hwithin : small.Within large) (storage : Storage) (value : Value) :
    (small.allocate storage value).Within (large.allocate storage value) where
  length := by simp [State.allocate, hwithin.length]
  cell := by
    intro index cell hcell hlive
    rw [State.allocate, List.getElem?_append] at hcell ⊢
    rw [← hwithin.length]
    split at hcell
    · next hlt => rw [if_pos hlt, hwithin.cell hcell hlive]
    · next hge => rw [if_neg hge, hcell]
  zones := hwithin.zones
  isOpen := hwithin.isOpen
  world := hwithin.world

theorem log (hwithin : small.Within large) (event : Event) :
    (small.log event).Within (large.log event) :=
  ⟨hwithin.length, hwithin.cell, hwithin.zones, hwithin.isOpen, hwithin.world⟩

theorem kill (hwithin : small.Within large) (dies : Nat → Cell → Bool) :
    (small.kill dies).Within (large.kill dies) where
  length := by simp [State.kill, hwithin.length]
  cell := by
    intro index cell hcell hlive
    simp only [State.kill, List.getElem?_mapIdx, Option.map_eq_some_iff] at hcell ⊢
    obtain ⟨old, hold, rfl⟩ := hcell
    split at hlive
    · cases hlive
    · next hstays => exact ⟨old, hwithin.cell hold hlive, rfl⟩
  zones := hwithin.zones
  isOpen := hwithin.isOpen
  world := hwithin.world

theorem store? (hwithin : small.Within large) {place : Place} {value : Value} {after : State ω}
    (hstored : small.store? place value = some after) :
    ∃ after', large.store? place value = some after' ∧ after.Within after' := by
  obtain ⟨cell, changed, hcell, hlive, hchanged, rfl⟩ := store?_eq_some hstored
  refine ⟨{ large with
    cells := large.cells.set place.cell { cell with value := changed }
    events := .store place value :: large.events }, ?_, ?_⟩
  · simp [State.store?, hwithin.cell hcell hlive, hlive, hchanged]
  · refine ⟨?_, ?_, hwithin.zones, hwithin.isOpen, hwithin.world⟩
    · simp [hwithin.length]
    · intro index found hfound hlive'
      rw [List.getElem?_set, ← hwithin.length]
      rw [List.getElem?_set] at hfound
      split at hfound
      · next hsame => rw [if_pos hsame, hfound]
      · next hother => rw [if_neg hother, hwithin.cell hfound hlive']

theorem enterZone (hwithin : small.Within large) :
    State.Within
      { small with
        zones := small.zones ++ [true]
        events := .zoneEnter small.zones.length :: small.events }
      { large with
        zones := large.zones ++ [true]
        events := .zoneEnter large.zones.length :: large.events } where
  length := hwithin.length
  cell := hwithin.cell
  zones := by simp [hwithin.zones]
  isOpen := by
    intro handle hhandle
    rw [List.getElem?_append] at hhandle ⊢
    rw [← hwithin.zones]
    split at hhandle
    · next hlt => rw [if_pos hlt, hwithin.isOpen hhandle]
    · next hge => rw [if_neg hge, hhandle]
  world := hwithin.world

theorem releaseZone (hwithin : small.Within large) (handle : Nat) :
    (small.releaseZone handle).Within (large.releaseZone handle) := by
  have hkilled := hwithin.kill fun _ cell => cell.storage = .zone handle
  refine ⟨hkilled.length, hkilled.cell, ?_, ?_, hwithin.world⟩
  · simp [State.releaseZone, hwithin.zones]
  · intro other hother
    simp only [State.releaseZone, List.getElem?_set] at hother ⊢
    rw [← hwithin.zones]
    split at hother
    · next hsame => rw [if_pos hsame, hother]
    · next hapart => rw [if_neg hapart, hwithin.isOpen hother]

theorem isLive (hwithin : small.Within large) {index : Nat} (hlive : small.isLive index = true) :
    large.isLive index = true := by
  unfold State.isLive at hlive ⊢
  cases hcell : small.cells[index]? with
  | none => simp [hcell] at hlive
  | some cell =>
      rw [hcell] at hlive
      rw [hwithin.cell hcell hlive]
      exact hlive

mutual

theorem readable (hwithin : small.Within large) : (value : Value) →
    small.readable value = true → large.readable value = true
  | .str (some owner) _, hreadable => by
      rw [State.readable] at hreadable ⊢
      exact hwithin.isLive hreadable
  | .aggregate items, hreadable => by
      rw [State.readable] at hreadable ⊢
      exact hwithin.allReadable items hreadable
  | .str none _, _ | .int _, _ | .u8 _, _ | .bool _, _ | .ptr _, _ | .zone _, _ | .void, _
  | .undef, _ => by simp [State.readable]

theorem allReadable (hwithin : small.Within large) : (items : List Value) →
    small.allReadable items = true → large.allReadable items = true
  | [], _ => by rw [State.allReadable]
  | item :: rest, hreadable => by
      rw [State.allReadable, Bool.and_eq_true] at hreadable ⊢
      exact ⟨hwithin.readable item hreadable.1, hwithin.allReadable rest hreadable.2⟩

end

end State.Within

namespace Semantics

variable {α : Type}

/-! The steps of a run. -/

theorem lifts_load (place : Place) : Lifts State.Within (Eval.load place : Eval ω Value) := by
  intro small large value after hwithin hrun
  obtain ⟨hload, rfl⟩ :=
    ofOption_eq_ok.mp (show Eval.ofOption (small.load? place) small = _ from hrun)
  exact ⟨large, ofOption_eq_ok.mpr ⟨hwithin.load? hload, rfl⟩, hwithin⟩

theorem lifts_allocate (storage : Storage) (value : Value) :
    Lifts State.Within (Eval.allocate storage value : Eval ω Place) := by
  intro small large place after hwithin hrun
  obtain ⟨rfl, rfl⟩ := allocate_eq_ok hrun
  rw [hwithin.length]
  exact ⟨_, rfl, hwithin.allocate storage value⟩

theorem lifts_equal (left right : Value) :
    Lifts State.Within (Eval.equal left right : Eval ω Bool) := by
  intro small large same after hwithin hrun
  change (if small.readable left && small.readable right then Eval.ofOption (left.equal right)
    else Eval.undefined) small = _ at hrun
  split at hrun
  · next hreadable =>
      rw [Bool.and_eq_true] at hreadable
      obtain ⟨hequal, rfl⟩ := ofOption_eq_ok.mp hrun
      refine ⟨large, ?_, hwithin⟩
      change (if large.readable left && large.readable right then Eval.ofOption (left.equal right)
        else Eval.undefined) large = _
      rw [hwithin.readable left hreadable.1, hwithin.readable right hreadable.2]
      exact ofOption_eq_ok.mpr ⟨hequal, rfl⟩
  · cases hrun

/-- A step that is taken in an open zone. -/
theorem lifts_zone {handle : Nat} {run : Eval ω α} (hrun : Lifts State.Within run) :
    Lifts State.Within (do
      if (← get).zones[handle]? = some true then run else Eval.undefined : Eval ω α) := by
  intro small large a after hwithin hboth
  change (if small.zones[handle]? = some true then run else Eval.undefined) small = _ at hboth
  split at hboth
  · next hopen =>
      obtain ⟨after', hrun', hafter⟩ := hrun _ _ _ _ hwithin hboth
      refine ⟨after', ?_, hafter⟩
      change (if large.zones[handle]? = some true then run else Eval.undefined) large = _
      rw [if_pos (hwithin.isOpen hopen), hrun']
  · cases hboth

theorem lifts_zoneAllocate (zone value : Value) :
    Lifts State.Within (Eval.zoneAllocate zone value : Eval ω Value) := by
  unfold Eval.zoneAllocate
  split
  · exact lifts_zone ((lifts_allocate _ _).bind fun _ => lifts_pure _)
  · exact lifts_pure _
  · exact lifts_throw _

theorem lifts_log (event : Event) : Lifts State.Within (Eval.log event : Eval ω Unit) :=
  lifts_modify fun hwithin => hwithin.log event

theorem lifts_releaseZone (zone : Value) :
    Lifts State.Within (Eval.releaseZone zone : Eval ω Unit) := by
  unfold Eval.releaseZone
  split
  · exact lifts_zone (lifts_modify fun hwithin => hwithin.releaseZone _)
  · exact lifts_pure _
  · exact lifts_throw _

theorem lifts_store (place : Place) (value : Value) :
    Lifts State.Within (Eval.store place value : Eval ω Unit) := by
  intro small large result after hwithin hrun
  obtain ⟨after', hstored', hafter⟩ := hwithin.store? (store_eq_ok.mp hrun)
  exact ⟨after', store_eq_ok.mpr hstored', hafter⟩

theorem lifts_enterZone : Lifts State.Within (Eval.enterZone : Eval ω Nat) := by
  intro small large handle after hwithin hrun
  cases hrun
  refine ⟨_, ?_, hwithin.enterZone⟩
  rw [hwithin.zones]
  rfl

theorem lifts_kill (dies : Nat → Cell → Bool) :
    Lifts State.Within (modify (fun state => state.kill dies) : Eval ω Unit) :=
  lifts_modify fun hwithin => hwithin.kill dies

theorem lifts_free (value : Value) : Lifts State.Within (Eval.free value : Eval ω Unit) := by
  unfold Eval.free
  split
  · next index =>
      intro small large result after hwithin hrun
      obtain ⟨current, middle, hget, hrun⟩ := bind_eq_ok.mp hrun
      cases hget
      cases hcell : small.cells[index]? with
      | none =>
          rw [hcell] at hrun
          cases hrun
      | some cell =>
          rw [hcell] at hrun
          dsimp only at hrun
          split at hrun
          · next hlive =>
              obtain ⟨after', hrun', hafter⟩ :=
                ((lifts_kill _).bind fun _ => lifts_log _) _ _ _ _ hwithin hrun
              refine ⟨after', bind_eq_ok.mpr ⟨large, large, rfl, ?_⟩, hafter⟩
              rw [hwithin.cell hcell (Bool.and_eq_true_iff.mp hlive).1]
              dsimp only
              rw [if_pos hlive, hrun']
          · cases hrun
  · exact (lifts_kill _).bind fun _ => lifts_log _
  · exact lifts_log _
  · exact lifts_log _
  · exact lifts_throw _

theorem lifts_activation {P : α → Prop} {body : Eval ω α}
    (hbody : LiftsWith State.Within body P) :
    LiftsWith State.Within (do
      let base := (← get).cells.length
      let a ← body
      modify fun state => state.dropFrame base
      return a) P := by
  intro small large a after hwithin hrun
  have hframe : ∀ base, LiftsWith State.Within (do
      let a ← body
      modify fun state => state.dropFrame base
      return a) P := fun base => hbody.bind fun a ha =>
    ((lifts_kill _).satisfying fun _ => trivial).bind fun _ _ => liftsWith_pure a ha
  obtain ⟨⟨after', hrun', hafter⟩, ha⟩ := hframe small.cells.length _ _ _ _ hwithin hrun
  rw [hwithin.length] at hrun'
  exact ⟨⟨after', hrun', hafter⟩, ha⟩

/-- To go the same way with more memory, as a property that composes. -/
def liftsRules (ω : Type) : StmtRules ω where
  region := .all
  copies := true
  copies_eq := rfl
  Allows run P := LiftsWith State.Within run P
  allows_pure := liftsWith_pure
  allows_throw := liftsWith_throw
  allows_bind := LiftsWith.bind
  allows_load _ := (lifts_load _).satisfying Value.inside_all
  allows_allocate _ _ := (lifts_allocate _ _).satisfying fun _ => trivial
  allows_equal _ _ := (lifts_equal _ _).satisfying fun _ => trivial
  allows_zoneAllocate _ _ := (lifts_zoneAllocate _ _).satisfying Value.inside_all
  allows_log _ := (lifts_log _).satisfying fun _ => trivial
  allows_releaseZone _ := (lifts_releaseZone _).satisfying fun _ => trivial
  allows_store _ _ := (lifts_store _ _).satisfying fun _ => trivial
  allows_enterZone := lifts_enterZone.satisfying fun _ => trivial
  allows_free _ := (lifts_free _).satisfying fun _ => trivial
  allows_activation := lifts_activation

def Callee.Lifts (callee : Callee ω) : Prop :=
  ∀ target moduleName functionName arguments,
    Library.Runs.Lifts State.Within (callee target moduleName functionName arguments)

theorem Callee.Lifts.allows {callee : Callee ω} (hcallee : callee.Lifts) :
    (liftsRules ω).AllowsCallee callee :=
  fun _ _ _ _ _ => (hcallee _ _ _ _).satisfying Value.inside_all

theorem lifts_runCall {program : IrProgram} {runtime : Callee ω} (hruntime : runtime.Lifts)
    (fuel : Nat) : (runCall program runtime fuel).Lifts :=
  fun _ _ _ arguments => ((liftsRules ω).allows_runCall hruntime.allows fuel _ _ _ arguments
    (Value.itemsInside_all arguments)).lifts

theorem lifts_value {structs : StructTable} {callee : Callee ω} (hcallee : callee.Lifts)
    (env : Env) (expression : IrExpr) :
    Library.Runs.Lifts State.Within (denote structs callee env expression).value :=
  ((liftsRules ω).allows_value hcallee.allows expression fun _ _ _ _ _ => trivial).lifts

end Semantics

end Cnegative
