import Cnegative.Semantics.Keeps

namespace Cnegative

open Library.Runs
open Semantics (store?_eq_some)

variable {ω : Type}

/-! A run changes nothing that it cannot reach. -/

/-- Nothing in the region leads out of it, and memory still to come belongs to it. -/
structure State.Enclosed (region : Region) (state : State ω) : Prop where
  cell : ∀ {index : Nat} {cell : Cell}, region.cell index → state.cells[index]? = some cell →
    cell.live = true → cell.value.Inside region
  zoned : ∀ {index : Nat} {cell : Cell} {handle : Nat}, state.cells[index]? = some cell →
    cell.storage = .zone handle → region.zone handle → region.cell index
  fresh : ∀ {index : Nat}, state.cells.length ≤ index → region.cell index
  freshZone : ∀ {handle : Nat}, state.zones.length ≤ handle → region.zone handle

structure State.Apart (region : Region) (before after : State ω) : Prop where
  cell : ∀ {index : Nat}, ¬ region.cell index → after.cells[index]? = before.cells[index]?
  zone : ∀ {handle : Nat}, ¬ region.zone handle → after.zones[handle]? = before.zones[handle]?

namespace State

variable {region : Region} {state middle after : State ω}

theorem Apart.refl (state : State ω) : Apart region state state :=
  ⟨fun _ => rfl, fun _ => rfl⟩

theorem Apart.trans (hfirst : Apart region state middle) (hsecond : Apart region middle after) :
    Apart region state after :=
  ⟨fun houtside => (hsecond.cell houtside).trans (hfirst.cell houtside),
    fun houtside => (hsecond.zone houtside).trans (hfirst.zone houtside)⟩

theorem Enclosed.load? (henclosed : state.Enclosed region) {place : Place} {value : Value}
    (hnear : region.cell place.cell) (hload : state.load? place = some value) :
    value.Inside region := by
  simp only [State.load?, Option.bind_eq_bind, Option.bind_eq_some_iff] at hload
  obtain ⟨cell, hcell, hvalue⟩ := hload
  split at hvalue
  · next hlive => exact Value.inside_get? (henclosed.cell hnear hcell hlive) hvalue
  · cases hvalue

theorem Enclosed.allocate (henclosed : state.Enclosed region) (storage : Storage) {value : Value}
    (hvalue : value.Inside region) :
    (state.allocate storage value).Enclosed region ∧
      Apart region state (state.allocate storage value) := by
  have hnew : region.cell state.cells.length := henclosed.fresh (Nat.le_refl _)
  refine ⟨⟨?_, ?_, ?_, henclosed.freshZone⟩, ⟨?_, fun _ => rfl⟩⟩
  · intro index cell hregion hcell hlive
    rw [State.allocate, List.getElem?_append] at hcell
    split at hcell
    · exact henclosed.cell hregion hcell hlive
    · obtain rfl := List.mem_singleton.mp (List.mem_of_getElem? hcell)
      exact hvalue
  · intro index cell handle hcell hstorage hhandle
    rw [State.allocate, List.getElem?_append] at hcell
    split at hcell
    · exact henclosed.zoned hcell hstorage hhandle
    · next hge => exact henclosed.fresh (Nat.le_of_not_lt hge)
  · intro index hlength
    rw [State.allocate, List.length_append] at hlength
    exact henclosed.fresh (Nat.le_of_add_right_le hlength)
  · intro index houtside
    have hlt : index < state.cells.length :=
      Nat.lt_of_not_le fun hge => houtside (henclosed.fresh hge)
    rw [State.allocate, List.getElem?_append_left hlt]

theorem Enclosed.log (henclosed : state.Enclosed region) (event : Event) :
    (state.log event).Enclosed region ∧ Apart region state (state.log event) :=
  ⟨⟨henclosed.cell, henclosed.zoned, henclosed.fresh, henclosed.freshZone⟩,
    ⟨fun _ => rfl, fun _ => rfl⟩⟩

theorem Enclosed.kill (henclosed : state.Enclosed region) {dies : Nat → Cell → Bool}
    (hdies : ∀ index cell, state.cells[index]? = some cell → dies index cell = true →
      region.cell index) :
    (state.kill dies).Enclosed region ∧ Apart region state (state.kill dies) := by
  have hkilled : ∀ {index : Nat} {cell : Cell}, (state.kill dies).cells[index]? = some cell →
      ∃ old, state.cells[index]? = some old ∧ cell.storage = old.storage ∧
        (cell.live = true → cell = old) := by
    intro index cell hcell
    simp only [State.kill, List.getElem?_mapIdx, Option.map_eq_some_iff] at hcell
    obtain ⟨old, hold, rfl⟩ := hcell
    refine ⟨old, hold, ?_, fun hlive => ?_⟩
    · split <;> rfl
    · split at hlive
      · cases hlive
      · next hstays => rw [if_neg hstays]
  refine ⟨⟨?_, ?_, ?_, henclosed.freshZone⟩, ⟨?_, fun _ => rfl⟩⟩
  · intro index cell hregion hcell hlive
    obtain ⟨old, hold, -, hsame⟩ := hkilled hcell
    obtain rfl := hsame hlive
    exact henclosed.cell hregion hold hlive
  · intro index cell handle hcell hstorage hhandle
    obtain ⟨old, hold, hsame, -⟩ := hkilled hcell
    exact henclosed.zoned hold (hsame ▸ hstorage) hhandle
  · intro index hlength
    rw [State.kill, List.length_mapIdx] at hlength
    exact henclosed.fresh hlength
  · intro index houtside
    simp only [State.kill, List.getElem?_mapIdx]
    cases hcell : state.cells[index]? with
    | none => rfl
    | some cell =>
        cases hdead : dies index cell with
        | true => exact absurd (hdies index cell hcell hdead) houtside
        | false => simp [hdead]

theorem Enclosed.releaseZone (henclosed : state.Enclosed region) {handle : Nat}
    (hhandle : region.zone handle) :
    (state.releaseZone handle).Enclosed region ∧
      Apart region state (state.releaseZone handle) := by
  have hdies : ∀ index cell, state.cells[index]? = some cell →
      decide (cell.storage = .zone handle) = true → region.cell index :=
    fun index cell hcell hdead => henclosed.zoned hcell (of_decide_eq_true hdead) hhandle
  have hkill := henclosed.kill hdies
  refine ⟨⟨hkill.1.cell, hkill.1.zoned, hkill.1.fresh, ?_⟩, ⟨hkill.2.cell, ?_⟩⟩
  · intro other hlength
    simp only [State.releaseZone, List.length_set] at hlength
    exact henclosed.freshZone hlength
  · intro other houtside
    simp only [State.releaseZone]
    rw [List.getElem?_set_ne]
    rintro rfl
    exact houtside hhandle

theorem Enclosed.store? (henclosed : state.Enclosed region) {place : Place} {value : Value}
    (hnear : region.cell place.cell) (hvalue : value.Inside region)
    (hstored : state.store? place value = some after) :
    after.Enclosed region ∧ Apart region state after := by
  obtain ⟨cell, changed, hcell, hlive, hchanged, rfl⟩ := store?_eq_some hstored
  have hinside := Value.inside_set? hvalue place.path (henclosed.cell hnear hcell hlive) hchanged
  refine ⟨⟨?_, ?_, ?_, henclosed.freshZone⟩, ⟨?_, fun _ => rfl⟩⟩
  · intro index found hregion hfound hfoundLive
    rw [List.getElem?_set] at hfound
    split at hfound
    · split at hfound
      · obtain rfl := Option.some.inj hfound
        exact hinside
      · cases hfound
    · exact henclosed.cell hregion hfound hfoundLive
  · intro index found handle hfound hstorage hhandle
    rw [List.getElem?_set] at hfound
    split at hfound
    · next hsame =>
        rw [← hsame]
        exact hnear
    · exact henclosed.zoned hfound hstorage hhandle
  · intro index hlength
    rw [List.length_set] at hlength
    exact henclosed.fresh hlength
  · intro index houtside
    rw [List.getElem?_set_ne]
    rintro rfl
    exact houtside hnear

theorem Enclosed.enterZone (henclosed : state.Enclosed region) :
    State.Enclosed region
        { state with
          zones := state.zones ++ [true]
          events := .zoneEnter state.zones.length :: state.events } ∧
      State.Apart region state
        { state with
          zones := state.zones ++ [true]
          events := .zoneEnter state.zones.length :: state.events } := by
  refine ⟨⟨henclosed.cell, henclosed.zoned, henclosed.fresh, ?_⟩, ⟨fun _ => rfl, ?_⟩⟩
  · intro handle hlength
    rw [List.length_append] at hlength
    exact henclosed.freshZone (Nat.le_of_add_right_le hlength)
  · intro handle houtside
    have hlt : handle < state.zones.length :=
      Nat.lt_of_not_le fun hge => houtside (henclosed.freshZone hge)
    rw [List.getElem?_append_left hlt]

end State

namespace Semantics

variable {α β : Type} {region : Region}

/-- From an enclosed region a run changes nothing else, stays enclosed and ends as asked. -/
def Confined (region : Region) (run : Eval ω α) (P : α → Prop) : Prop :=
  ∀ state a after, state.Enclosed region → run state = .ok a after →
    (after.Enclosed region ∧ State.Apart region state after) ∧ P a

theorem confined_pure {P : α → Prop} (a : α) (ha : P a) :
    Confined region (pure a : Eval ω α) P := by
  intro state b after henclosed hrun
  cases hrun
  exact ⟨⟨henclosed, .refl _⟩, ha⟩

theorem confined_throw {P : α → Prop} (fault : Fault) :
    Confined region (throw fault : Eval ω α) P := by
  intro state a after _ hrun
  cases hrun

theorem Confined.bind {first : Eval ω α} {next : α → Eval ω β} {P : α → Prop} {Q : β → Prop}
    (hfirst : Confined region first P) (hnext : ∀ a, P a → Confined region (next a) Q) :
    Confined region (first >>= next) Q := by
  intro state b after henclosed hrun
  obtain ⟨a, middle, hhead, htail⟩ := bind_eq_ok.mp hrun
  obtain ⟨⟨hmiddle, hapart⟩, ha⟩ := hfirst _ _ _ henclosed hhead
  obtain ⟨⟨hafter, hfurther⟩, hb⟩ := hnext a ha _ _ _ hmiddle htail
  exact ⟨⟨hafter, hapart.trans hfurther⟩, hb⟩

theorem confined_load {place : Place} (hnear : region.cell place.cell) :
    Confined region (Eval.load place : Eval ω Value) (Value.Inside region) := by
  intro state value after henclosed hrun
  obtain ⟨hload, rfl⟩ :=
    ofOption_eq_ok.mp (show Eval.ofOption (state.load? place) state = _ from hrun)
  exact ⟨⟨henclosed, .refl _⟩, henclosed.load? hnear hload⟩

theorem confined_allocate (storage : Storage) {value : Value} (hvalue : value.Inside region) :
    Confined region (Eval.allocate storage value : Eval ω Place)
      fun place => region.cell place.cell := by
  intro state place after henclosed hrun
  obtain ⟨rfl, rfl⟩ := allocate_eq_ok hrun
  exact ⟨henclosed.allocate storage hvalue, henclosed.fresh (Nat.le_refl _)⟩

theorem confined_equal (left right : Value) :
    Confined region (Eval.equal left right : Eval ω Bool) fun _ => True := by
  intro state same after henclosed hrun
  obtain rfl : state = after := by
    change (if state.readable left && state.readable right then Eval.ofOption (left.equal right)
      else Eval.undefined) state = _ at hrun
    split at hrun
    · exact (ofOption_eq_ok.mp hrun).2
    · cases hrun
  exact ⟨⟨henclosed, .refl _⟩, trivial⟩

/-- A step that is taken in an open zone. -/
theorem confined_zone {handle : Nat} {run : Eval ω α} {P : α → Prop}
    (hrun : Confined region run P) :
    Confined region (do
      if (← get).zones[handle]? = some true then run else Eval.undefined : Eval ω α) P := by
  intro state a after henclosed hboth
  change (if state.zones[handle]? = some true then run else Eval.undefined) state = _ at hboth
  split at hboth
  · exact hrun _ _ _ henclosed hboth
  · cases hboth

theorem confined_zoneAllocate {zone value : Value} (hvalue : value.Inside region) :
    Confined region (Eval.zoneAllocate zone value : Eval ω Value) (Value.Inside region) := by
  unfold Eval.zoneAllocate
  split
  · exact confined_zone ((confined_allocate _ hvalue).bind fun _ hnear =>
      confined_pure _ (Value.inside_ptr.mpr hnear))
  · exact confined_pure _ (by simp [Value.Inside])
  · exact confined_throw _

theorem confined_modify {change : State ω → State ω}
    (hchange : ∀ state, state.Enclosed region →
      (change state).Enclosed region ∧ State.Apart region state (change state)) :
    Confined region (modify change : Eval ω Unit) fun _ => True := by
  intro state a after henclosed hrun
  cases hrun
  exact ⟨hchange state henclosed, trivial⟩

theorem confined_log (event : Event) :
    Confined region (Eval.log event : Eval ω Unit) fun _ => True :=
  confined_modify fun _ henclosed => henclosed.log event

theorem confined_releaseZone {zone : Value} (hzone : zone.Inside region) :
    Confined region (Eval.releaseZone zone : Eval ω Unit) fun _ => True := by
  unfold Eval.releaseZone
  split
  · rw [Value.Inside] at hzone
    exact confined_zone (confined_modify fun _ henclosed => henclosed.releaseZone hzone)
  · exact confined_pure _ trivial
  · exact confined_throw _

theorem confined_store {place : Place} {value : Value} (hnear : region.cell place.cell)
    (hvalue : value.Inside region) :
    Confined region (Eval.store place value : Eval ω Unit) fun _ => True := by
  intro state result after henclosed hrun
  exact ⟨henclosed.store? hnear hvalue (store_eq_ok.mp hrun), trivial⟩

theorem confined_enterZone : Confined region (Eval.enterZone : Eval ω Nat) region.zone := by
  intro state handle after henclosed hrun
  cases hrun
  exact ⟨henclosed.enterZone, henclosed.freshZone (Nat.le_refl _)⟩

theorem confined_end {index : Nat} (hindex : region.cell index) (event : Event) :
    Confined region (do
      modify fun state => state.kill fun other _ => other = index
      Eval.log event : Eval ω Unit) fun _ => True := by
  refine (confined_modify fun state henclosed => henclosed.kill fun other cell _ hdead => ?_).bind
    fun _ _ => confined_log event
  rw [of_decide_eq_true hdead]
  exact hindex

theorem confined_free {value : Value} (hvalue : value.Inside region) :
    Confined region (Eval.free value : Eval ω Unit) fun _ => True := by
  unfold Eval.free
  split
  · next index =>
      intro state result after henclosed hrun
      obtain ⟨current, middle, hget, hrun⟩ := bind_eq_ok.mp hrun
      cases hget
      cases hcell : state.cells[index]? with
      | none =>
          rw [hcell] at hrun
          cases hrun
      | some cell =>
          rw [hcell] at hrun
          dsimp only at hrun
          split at hrun
          · exact confined_end (Value.inside_ptr.mp hvalue) _ _ _ _ henclosed hrun
          · cases hrun
  · next owner bytes =>
      rw [Value.Inside] at hvalue
      exact confined_end (hvalue owner rfl) _
  · exact confined_log _
  · exact confined_log _
  · exact confined_throw _

theorem confined_activation {P : α → Prop} {body : Eval ω α} (hbody : Confined region body P) :
    Confined region (do
      let base := (← get).cells.length
      let a ← body
      modify fun state => state.dropFrame base
      return a) P := by
  intro state a after henclosed hrun
  have hdrop : Confined region
      (modify (fun later => later.dropFrame state.cells.length) : Eval ω Unit) fun _ => True :=
    confined_modify fun later hlater => hlater.kill fun index cell _ hdead =>
      henclosed.fresh (of_decide_eq_true (Bool.and_eq_true_iff.mp hdead).1)
  exact (hbody.bind fun a ha => hdrop.bind fun _ _ => confined_pure a ha) _ _ _ henclosed hrun

/-- To be confined, as a property that composes. -/
def confinedRules (ω : Type) (region : Region) : StmtRules ω where
  region := region
  copies := true
  copies_eq := rfl
  Allows run P := Confined region run P
  allows_pure := confined_pure
  allows_throw := confined_throw
  allows_bind := Confined.bind
  allows_load := confined_load
  allows_allocate _ hvalue := confined_allocate _ hvalue
  allows_equal := confined_equal
  allows_zoneAllocate _ := confined_zoneAllocate
  allows_log := confined_log
  allows_releaseZone := confined_releaseZone
  allows_store := confined_store
  allows_enterZone := confined_enterZone
  allows_free := confined_free
  allows_activation := confined_activation

def Callee.Confined (callee : Callee ω) (region : Region) : Prop :=
  ∀ target moduleName functionName arguments, Value.ItemsInside region arguments →
    Semantics.Confined region (callee target moduleName functionName arguments)
      (Value.Inside region)

theorem confined_runCall {program : IrProgram} {runtime : Callee ω}
    (hruntime : runtime.Confined region) (fuel : Nat) :
    (runCall program runtime fuel).Confined region :=
  (confinedRules ω region).allows_runCall hruntime fuel

theorem confined_value {structs : StructTable} {callee : Callee ω} {env : Env}
    (hcallee : callee.Confined region) (expression : IrExpr)
    (henv : env.Inside region expression.lookups) :
    Confined region (denote structs callee env expression).value (Value.Inside region) := by
  have hcalls : (confinedRules ω region).AllowsCalls callee :=
    (confinedRules ω region).allows_evalCall hcallee
  have hmeaning : (confinedRules ω region).AllowsMeaning (denote structs callee env expression)
      expression := (confinedRules ω region).allows_denote hcalls expression henv (.inl rfl)
  exact hmeaning.value

end Semantics

end Cnegative
