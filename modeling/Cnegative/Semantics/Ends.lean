import Cnegative.Semantics.Within

namespace Cnegative

open Library (Chain)

/-! Memory that a cleanup ends. -/

namespace Value

/-- Whether `free` of the value, or the release of the zone it names, ends the cell. -/
def ends (value : Value) (index : Nat) (cell : Cell) : Bool :=
  match value with
  | .zone handle => cell.storage = .zone handle
  | .ptr (some ⟨target, []⟩) => index = target
  | .str (some owner) _ => index = owner
  | _ => false

def closes (value : Value) (handle : Nat) : Bool :=
  match value with
  | .zone closed => handle = closed
  | _ => false

end Value

namespace State

variable {ω : Type}

/-- The state with the memory that the values stand for ended. -/
def without (state : State ω) (values : List Value) : State ω :=
  { state.kill (fun index cell => values.any fun value => value.ends index cell) with
    zones := state.zones.mapIdx fun handle isOpen =>
      isOpen && !values.any fun value => value.closes handle }

/-- The states differ in what was logged alone. -/
structure SameMemory (first second : State ω) : Prop where
  cells : first.cells = second.cells
  zones : first.zones = second.zones
  world : first.world = second.world

theorem SameMemory.within {first second : State ω} (hsame : first.SameMemory second) :
    first.Within second :=
  ⟨congrArg _ hsame.cells, fun hcell _ => hsame.cells ▸ hcell, congrArg _ hsame.zones,
    fun hopen => hsame.zones ▸ hopen, hsame.world⟩

theorem SameMemory.symm {first second : State ω} (hsame : first.SameMemory second) :
    second.SameMemory first :=
  ⟨hsame.cells.symm, hsame.zones.symm, hsame.world.symm⟩

theorem within_of_without (state : State ω) (values : List Value) :
    (state.without values).Within state where
  length := by simp [without, kill]
  cell := by
    intro index cell hcell hlive
    simp only [without, kill, List.getElem?_mapIdx, Option.map_eq_some_iff] at hcell
    obtain ⟨old, hold, rfl⟩ := hcell
    split at hlive
    · cases hlive
    · next hstays => rw [if_neg hstays, hold]
  zones := by simp [without]
  isOpen := by
    intro handle hopen
    simp only [without, List.getElem?_mapIdx, Option.map_eq_some_iff] at hopen
    obtain ⟨old, hold, hboth⟩ := hopen
    rw [hold, (Bool.and_eq_true_iff.mp hboth).1]
  world := rfl

theorem without_nil (state : State ω) : state.SameMemory (state.without []) where
  cells := List.ext_getElem? fun index => by simp [without, kill]
  zones := List.ext_getElem? fun handle => by simp [without]
  world := rfl

theorem kill_kill (state : State ω) (first second : Nat → Cell → Bool)
    (hstorage : ∀ index cell, second index { cell with live := false } = second index cell) :
    ((state.kill first).kill second).cells =
      (state.kill fun index cell => first index cell || second index cell).cells := by
  refine List.ext_getElem? fun index => ?_
  simp only [kill, List.getElem?_mapIdx, Option.map_map]
  congr 1
  funext cell
  by_cases hfirst : first index cell = true <;> simp [hfirst, hstorage]

theorem ends_live (value : Value) (index : Nat) (cell : Cell) :
    value.ends index { cell with live := false } = value.ends index cell := by
  unfold Value.ends
  split <;> rfl

/-- Memory is ended in one go or by and by. -/
theorem without_concat (state : State ω) (values : List Value) (value : Value) :
    ((state.without values).without [value]).SameMemory (state.without (values ++ [value])) where
  cells := by
    have hkill := state.kill_kill (fun index cell => values.any fun value => value.ends index cell)
      (fun index cell => [value].any fun value => value.ends index cell) (by simp [ends_live])
    simpa [without, kill] using hkill
  zones := by
    refine List.ext_getElem? fun handle => ?_
    simp only [without, List.getElem?_mapIdx, Option.map_map]
    congr 1
    funext isOpen
    simp [Bool.and_assoc]
  world := rfl

theorem SameMemory.trans {first second third : State ω} (hfirst : first.SameMemory second)
    (hsecond : second.SameMemory third) : first.SameMemory third :=
  ⟨hfirst.cells.trans hsecond.cells, hfirst.zones.trans hsecond.zones,
    hfirst.world.trans hsecond.world⟩

theorem SameMemory.without {first second : State ω} (hsame : first.SameMemory second)
    (values : List Value) : (first.without values).SameMemory (second.without values) := by
  obtain ⟨hcells, hzones, hworld⟩ := hsame
  exact ⟨by simp [State.without, kill, hcells], by simp [State.without, hzones], hworld⟩

/-- A value that stands for no memory ends nothing. -/
theorem without_idle (state : State ω) {value : Value}
    (hends : ∀ index cell, value.ends index cell = false)
    (hcloses : ∀ handle, value.closes handle = false) :
    state.SameMemory (state.without [value]) where
  cells := List.ext_getElem? fun index => by simp [State.without, kill, hends]
  zones := List.ext_getElem? fun handle => by simp [State.without, hcloses]
  world := rfl

theorem sameMemory_log (state : State ω) (event : Event) : (state.log event).SameMemory state :=
  ⟨rfl, rfl, rfl⟩

theorem without_zone (state : State ω) (handle : Nat) :
    (state.releaseZone handle).SameMemory (state.without [.zone handle]) where
  cells := by simp [releaseZone, State.without, kill, Value.ends]
  zones := by
    refine List.ext_getElem? fun other => ?_
    simp only [releaseZone, State.without, List.getElem?_set, List.getElem?_mapIdx, List.any_cons,
      List.any_nil, Bool.or_false, Value.closes]
    by_cases hsame : handle = other
    · subst hsame
      cases hzone : state.zones[handle]? with
      | none => simpa using hzone
      | some isOpen => simp [(List.getElem?_eq_some_iff.mp hzone).1]
    · have hother : other ≠ handle := fun heq => hsame heq.symm
      simp [hsame, hother]
  world := rfl

theorem without_cell (state : State ω) {value : Value} {target : Nat}
    (hends : ∀ index cell, value.ends index cell = (index = target : Bool))
    (hcloses : ∀ handle, value.closes handle = false) (event : Event) :
    ((state.kill fun other _ => other = target).log event).SameMemory (state.without [value]) where
  cells := by simp [State.without, kill, log, hends]
  zones := List.ext_getElem? fun handle => by simp [State.without, kill, log, hcloses]
  world := rfl

end State

namespace Semantics

open Library.Runs

variable {ω : Type}

theorem releaseZone_ends {value : Value} {state after : State ω}
    (hrun : Eval.releaseZone value state = .ok () after) :
    after.SameMemory (state.without [value]) := by
  unfold Eval.releaseZone at hrun
  split at hrun
  · next handle =>
      change (if state.zones[handle]? = some true then modify fun state => state.releaseZone handle
        else Eval.undefined : Eval ω Unit) state = _ at hrun
      split at hrun
      · cases hrun
        exact state.without_zone handle
      · cases hrun
  · cases hrun
    exact state.without_idle (fun _ _ => rfl) fun _ => rfl
  · cases hrun

theorem free_ends {value : Value} {state after : State ω}
    (hrun : Eval.free value state = .ok () after) : after.SameMemory (state.without [value]) := by
  unfold Eval.free at hrun
  split at hrun
  · next index =>
      obtain ⟨current, middle, hget, hfree⟩ := bind_eq_ok.mp hrun
      cases hget
      cases hcell : state.cells[index]? with
      | none =>
          rw [hcell] at hfree
          cases hfree
      | some cell =>
          rw [hcell] at hfree
          dsimp only at hfree
          split at hfree
          · cases hfree
            exact state.without_cell (fun _ _ => rfl) (fun _ => rfl) _
          · cases hfree
  · cases hrun
    exact state.without_cell (fun _ _ => rfl) (fun _ => rfl) _
  · cases hrun
    exact (state.sameMemory_log _).trans (state.without_idle (fun _ _ => rfl) fun _ => rfl)
  · cases hrun
    exact (state.sameMemory_log _).trans (state.without_idle (fun _ _ => rfl) fun _ => rfl)
  · cases hrun

def localValue (env : Env) (state : State ω) (name : Name) : Option Value := do
  let found ← Chain.find? env name
  state.load? ⟨found.2, []⟩

theorem localValue_of_within {env : Env} {small large : State ω} (hwithin : small.Within large)
    {name : Name} {value : Value} (hvalue : localValue env small name = some value) :
    localValue env large name = some value := by
  obtain ⟨found, hfound, hload⟩ := Option.bind_eq_some_iff.mp hvalue
  exact Option.bind_eq_some_iff.mpr ⟨found, hfound, hwithin.load? hload⟩

theorem value_local {structs : StructTable} {callee : Callee ω} {env : Env} (type : TypeRef)
    (name : Name) (state : State ω) :
    (denote structs callee env (.local type name)).value state =
      Eval.ofOption (localValue env state name) state := by
  rw [denote]
  cases hfound : Chain.find? env name with
  | none =>
      have hnone : lookupLocal env name state = .error .undefined state := by
        rw [lookupLocal, hfound]
        rfl
      rw [localValue, hfound]
      exact bind_of_error hnone
  | some found =>
      have hplace : lookupLocal env name state = .ok ⟨found.2, []⟩ state := by
        rw [lookupLocal, hfound]
        rfl
      rw [localValue, hfound]
      exact bind_of_ok hplace

end Semantics

end Cnegative
