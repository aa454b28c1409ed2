import Cnegative.Backend.Arrives
import Cnegative.Semantics.Core
import Cnegative.Semantics.Keeps

namespace Cnegative

open Library (Frame Chain)

open Library.Runs (bind_of_ok)

open Scalar (Oracle Outside Store Local)

open Semantics (Env Callee ofOption_eq_ok lookupLocal)

open Typing (TypeEnv LocalType)

namespace Llvm

variable {ω : Type}

/-! The locals of a function in the cells of the memory, above those that were there when it was
called.  A local has its slot there; its register is not used. -/

def Joint.cells (joint : Joint) : List (Name × Nat) :=
  joint.map (Prod.map id fun entry => entry.slot)

theorem Joint.cells_of_layout {joint joint' : Joint} (hlayout : joint'.layout = joint.layout) :
    joint'.cells = joint.cells := by
  have hmap := congrArg (List.map (Prod.map id
    fun entry : TypeRef × Bool × Nat × Nat × Option Value => entry.2.2.2.1)) hlayout
  rw [layout, layout, List.map_map, List.map_map] at hmap
  exact hmap

structure Housed (frame : List Cell) (joint : Joint) (state : State ω) : Prop where
  frame_prefix : frame <+: state.cells
  above : ∀ entry ∈ joint, frame.length ≤ entry.2.slot
  cell : ∀ entry ∈ joint, state.cells[entry.2.slot]? = some ⟨.stack, true, entry.2.value⟩
  hasType : ∀ entry ∈ joint, entry.2.value.HasType entry.2.type
  apart : joint.slots.Nodup

namespace Housed

variable {frame : List Cell} {joint : Joint} {state after : State ω}

theorem slot_lt (hheld : Housed frame joint state) {entry : Name × Entry} (hentry : entry ∈ joint) :
    entry.2.slot < state.cells.length :=
  (List.getElem?_eq_some_iff.mp (hheld.cell entry hentry)).1

theorem grow (hheld : Housed frame joint state) (hgrow : state.cells <+: after.cells) :
    Housed frame joint after where
  frame_prefix := hheld.frame_prefix.trans hgrow
  above := hheld.above
  cell entry hentry := by
    obtain ⟨more, hmore⟩ := hgrow
    rw [← hmore, List.getElem?_append_left (hheld.slot_lt hentry), hheld.cell entry hentry]
  hasType := hheld.hasType
  apart := hheld.apart

theorem tail {entry : Name × Entry} (hheld : Housed frame (entry :: joint) state) :
    Housed frame joint state where
  frame_prefix := hheld.frame_prefix
  above other hother := hheld.above other (List.mem_cons_of_mem _ hother)
  cell other hother := hheld.cell other (List.mem_cons_of_mem _ hother)
  hasType other hother := hheld.hasType other (List.mem_cons_of_mem _ hother)
  apart := (List.nodup_cons.mp hheld.apart).2

theorem cons (hheld : Housed frame joint state) {name : Name} {entry : Entry}
    (habove : frame.length ≤ entry.slot)
    (hcell : state.cells[entry.slot]? = some ⟨.stack, true, entry.value⟩)
    (htype : entry.value.HasType entry.type) (hfresh : entry.slot ∉ joint.slots) :
    Housed frame ((name, entry) :: joint) state where
  frame_prefix := hheld.frame_prefix
  above := List.forall_mem_cons.mpr ⟨habove, hheld.above⟩
  cell := List.forall_mem_cons.mpr ⟨hcell, hheld.cell⟩
  hasType := List.forall_mem_cons.mpr ⟨htype, hheld.hasType⟩
  apart := List.nodup_cons.mpr ⟨hfresh, hheld.apart⟩

/-- A new local in a new cell. -/
theorem allocate (hheld : Housed frame joint state) {value : Value} {type : TypeRef}
    (htype : value.HasType type) (name : Name) (isMutable : Bool) :
    Housed frame ((name, ⟨type, isMutable, 0, state.cells.length, value⟩) :: joint)
      (state.allocate .stack value) := by
  have hgrow : state.cells <+: (state.allocate .stack value).cells := List.prefix_append _ _
  refine (hheld.grow hgrow).cons hheld.frame_prefix.length_le ?_ htype fun hslot => ?_
  · simp [State.allocate]
  · obtain ⟨entry, hentry, heq⟩ := List.mem_map.mp hslot
    exact Nat.lt_irrefl _ (heq ▸ hheld.slot_lt hentry)

/-- A store to the cell of another local. -/
theorem set_other (hheld : Housed frame joint state) {slot : Nat} {cell : Cell}
    (habove : frame.length ≤ slot) (hslot : slot ∉ joint.slots)
    (hafter : after.cells = state.cells.set slot cell) : Housed frame joint after where
  frame_prefix := by
    obtain ⟨more, hmore⟩ := hheld.frame_prefix
    rw [hafter, ← hmore, List.set_append_right _ _ habove]
    exact List.prefix_append _ _
  above := hheld.above
  cell entry hentry := by
    have hne : slot ≠ entry.2.slot := fun heq => hslot (heq ▸ List.mem_map_of_mem hentry)
    rw [hafter, List.getElem?_set_ne hne, hheld.cell entry hentry]
  hasType := hheld.hasType
  apart := hheld.apart

theorem set_head {name : Name} {entry : Entry} {value : Value}
    (hheld : Housed frame ((name, entry) :: joint) state) (htype : value.HasType entry.type)
    (hafter : after.cells = state.cells.set entry.slot ⟨.stack, true, value⟩) :
    Housed frame ((name, { entry with value := value }) :: joint) after := by
  have habove := hheld.above _ List.mem_cons_self
  have hfresh := (List.nodup_cons.mp hheld.apart).1
  refine .cons (hheld.tail.set_other habove hfresh hafter) habove ?_ htype hfresh
  have hlt := hheld.slot_lt (List.mem_cons_self (a := (name, entry)))
  simp [hafter, hlt]

/-- An assignment is a store to the cell of the innermost local of the name. -/
theorem assign {name : Name} {entry : Entry} {value : Value}
    (hheld : Housed frame joint state) (hlookup : joint.lookup name = some entry)
    (hmutable : entry.isMutable = true) (htype : value.HasType entry.type)
    (hafter : after.cells = state.cells.set entry.slot ⟨.stack, true, value⟩) :
    ∃ joint', joint.store.assign name value = some joint'.store ∧
      joint'.layout = joint.layout ∧ Housed frame joint' after := by
  induction joint with
  | nil => cases hlookup
  | cons first rest ih =>
      obtain ⟨key, found⟩ := first
      simp only [Joint.store, List.map_cons, Prod.map_apply, id_eq, Store.assign]
      rw [List.lookup_cons] at hlookup
      cases hkey : name == key with
      | true =>
          simp only [hkey, Option.some.injEq] at hlookup
          subst hlookup
          refine ⟨(key, { found with value := value }) :: rest, ?_, ?_,
            hheld.set_head htype hafter⟩
          · simp [hmutable]
          · simp [hmutable, Joint.layout]
      | false =>
          simp only [hkey] at hlookup
          obtain ⟨rest', hassign, hlayout, hrest⟩ := ih hheld.tail hlookup
          have hentry : entry.slot ∈ Joint.slots rest := by
            obtain ⟨front, behind, rfl, -⟩ := List.lookup_eq_some_iff.mp hlookup
            simp [Joint.slots]
          have hfresh : found.slot ∉ Joint.slots rest := (List.nodup_cons.mp hheld.apart).1
          have hne : entry.slot ≠ found.slot := fun heq => hfresh (heq ▸ hentry)
          refine ⟨(key, found) :: rest', ?_, ?_, hrest.cons (hheld.above _ List.mem_cons_self) ?_
            (hheld.hasType _ List.mem_cons_self) ?_⟩
          · rw [Joint.store] at hassign
            simp [hassign, Joint.store]
          · simp only [Joint.layout, List.map_cons] at hlayout ⊢
            rw [hlayout]
          · rw [hafter, List.getElem?_set_ne hne, hheld.cell (key, found) List.mem_cons_self]
          · rw [Joint.slots_of_layout hlayout]
            exact hfresh

end Housed

/-- The scopes of a run and of the checker at the same point. -/
structure Placed (joint : Joint) (env : Env) (types : TypeEnv) : Prop where
  env_ne : env ≠ []
  types_ne : types ≠ []
  cells : env.flatMap Frame.bindings = joint.cells
  types : types.flatMap Frame.bindings = joint.types

namespace Placed

variable {joint joint' : Joint} {env : Env} {types : TypeEnv}

theorem push (hplaced : Placed joint env types) : Placed joint env.push types.push where
  env_ne := List.cons_ne_nil _ _
  types_ne := List.cons_ne_nil _ _
  cells := hplaced.cells
  types := hplaced.types

theorem define (hplaced : Placed joint env types) (name : Name) (entry : Entry) :
    Placed ((name, entry) :: joint) (env.define name entry.slot)
      (types.define name entry.type entry.isMutable) := by
  obtain ⟨henv, htypes, hcells, hentries⟩ := hplaced
  cases env with
  | nil => exact absurd rfl henv
  | cons frame outer =>
      cases types with
      | nil => exact absurd rfl htypes
      | cons typeFrame typeOuter =>
          refine ⟨List.cons_ne_nil _ _, List.cons_ne_nil _ _, ?_, ?_⟩
          · simpa [Env.define, Chain.define, Frame.define, Joint.cells] using hcells
          · simpa [TypeEnv.define, Chain.define, Frame.define, Joint.types] using hentries

theorem layout (hplaced : Placed joint env types) (hlayout : joint'.layout = joint.layout) :
    Placed joint' env types where
  env_ne := hplaced.env_ne
  types_ne := hplaced.types_ne
  cells := hplaced.cells.trans (Joint.cells_of_layout hlayout).symm
  types := hplaced.types.trans (Joint.types_of_layout hlayout).symm

/-- A local that is in scope for the checker. -/
theorem entry_of_find {name : Name} {found : LocalType}
    (hplaced : Placed joint env types)
    (hfind : (Chain.find? types name).map Prod.snd = some found) :
    ∃ entry, joint.lookup name = some entry ∧ found = ⟨entry.type, entry.isMutable⟩ := by
  rw [find?_eq_lookup, hplaced.types, Joint.types, Joint.lookup_map] at hfind
  obtain ⟨entry, hlookup, rfl⟩ := Option.map_eq_some_iff.mp hfind
  exact ⟨entry, hlookup, rfl⟩

/-- The place of a local is its cell. -/
theorem place {name : Name} {entry : Entry} (hplaced : Placed joint env types)
    (hlookup : joint.lookup name = some entry) (state : State ω) :
    lookupLocal env name state = .ok ⟨entry.slot, []⟩ state := by
  have hcell := find?_eq_lookup env name
  rw [hplaced.cells, Joint.cells, Joint.lookup_map, hlookup] at hcell
  obtain ⟨found, hfind, hslot⟩ := Option.map_eq_some_iff.mp hcell
  have hfound : (Eval.ofOption (Chain.find? env name) : Eval ω _) state = .ok found state :=
    ofOption_eq_ok.mpr ⟨hfind, rfl⟩
  rw [lookupLocal, bind_of_ok hfound, hslot]
  rfl

end Placed

theorem load_eq {slot : Nat} {value : Value} {state : State ω}
    (hcell : state.cells[slot]? = some ⟨.stack, true, value⟩) :
    Eval.load ⟨slot, []⟩ state = .ok value state := by
  have hload : state.load? ⟨slot, []⟩ = some value := by
    simp [State.load?, hcell, Value.get?]
  exact ofOption_eq_ok.mpr ⟨hload, rfl⟩

theorem store_eq {slot : Nat} {old : Value} {state : State ω} (value : Value)
    (hcell : state.cells[slot]? = some ⟨.stack, true, old⟩) :
    ∃ after, Eval.store ⟨slot, []⟩ value state = .ok () after ∧
      after.cells = state.cells.set slot ⟨.stack, true, value⟩ ∧ after.world = state.world := by
  have hstore : ∃ after, state.store? ⟨slot, []⟩ value = some after ∧
      after.cells = state.cells.set slot ⟨.stack, true, value⟩ ∧ after.world = state.world := by
    simp [State.store?, hcell, Value.set?]
  obtain ⟨after, hafter, hcells, hworld⟩ := hstore
  have hstored : (Eval.ofOption (state.store? ⟨slot, []⟩ value) : Eval ω _) state =
      .ok after state := ofOption_eq_ok.mpr ⟨hafter, rfl⟩
  exact ⟨after, bind_of_ok hstored, hcells, hworld⟩

/-! The counter of a `for` loop in its cell. -/

def counterAt (slot : Nat) (value : BitVec 64) : Entry := ⟨.int, false, 0, slot, .int value⟩

section

variable {frame : List Cell} {joint : Joint} {name : Name} {slot : Nat} {value : BitVec 64}
  {state : State ω}

theorem load_counter (hheld : Housed frame ((name, counterAt slot value) :: joint) state) :
    Eval.load ⟨slot, []⟩ state = .ok (.int value) state :=
  load_eq (hheld.cell _ List.mem_cons_self)

theorem store_counter (hheld : Housed frame ((name, counterAt slot value) :: joint) state)
    (next : BitVec 64) :
    ∃ after, Eval.store ⟨slot, []⟩ (.int next) state = .ok () after ∧
      Housed frame ((name, counterAt slot next) :: joint) after ∧ after.world = state.world := by
  obtain ⟨after, hstore, hcells, hworld⟩ :=
    store_eq (.int next) (hheld.cell _ List.mem_cons_self)
  exact ⟨after, hstore, hheld.set_head (.int next) hcells, hworld⟩

end

end Llvm

end Cnegative
