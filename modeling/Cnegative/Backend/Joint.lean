import Cnegative.Backend.Machine
import Cnegative.Backend.Runs
import Cnegative.Typing.Ir

namespace Cnegative

open Library (Line Code Chain Frame)

open Scalar (Oracle Outside Store Local)

open Typing (TypeEnv LocalType)

namespace Llvm

variable {ω : Type}

/-! Where a run of the emitted text stands in relation to the locals of the source. -/

theorem findLabel_of_eq {whole behind : Code Inst} {target : Nat} (before : Code Inst)
    (hnodup : whole.labels.Nodup) (hwhole : whole = before ++ Line.label target :: behind) :
    whole.findLabel target = some behind := by
  subst hwhole
  induction before with
  | nil => simp [Code.findLabel]
  | cons line rest ih =>
      cases line with
      | label id =>
          simp only [List.cons_append, Code.labels, List.flatMap_cons, Line.labels_label,
            List.nodup_cons] at hnodup
          have hne : id ≠ target := by
            rintro rfl
            exact hnodup.1 (by simp)
          simp only [List.cons_append, Code.findLabel, hne, if_false]
          exact ih hnodup.2
      | inst instruction =>
          simp only [List.cons_append, Code.labels, List.flatMap_cons, Line.labels_inst,
            List.nil_append] at hnodup
          exact ih hnodup

theorem suffix_of_findLabel {whole behind : Code Inst} {target : Nat}
    (hfind : whole.findLabel target = some behind) : ∃ before, whole = before ++ behind := by
  induction whole with
  | nil => cases hfind
  | cons line rest ih =>
      cases line with
      | label id =>
          simp only [Code.findLabel] at hfind
          split at hfind
          · cases hfind
            exact ⟨[.label id], rfl⟩
          · obtain ⟨before, rfl⟩ := ih hfind
            exact ⟨.label id :: before, rfl⟩
      | inst instruction =>
          obtain ⟨before, rfl⟩ := ih hfind
          exact ⟨.inst instruction :: before, rfl⟩

/-! What a piece of code leaves alone: registers below `bound`, and the slots that are not in
`slots`. -/

structure Spares (slots : List Nat) (bound : Nat) (before after : Machine ω) : Prop where
  registers : ∀ register < bound, after.registers register = before.registers register
  length : before.memory.length ≤ after.memory.length
  memory : ∀ slot < before.memory.length, slot ∉ slots →
    after.memory[slot]? = before.memory[slot]?

namespace Spares

variable {slots slots' : List Nat} {bound bound' : Nat} {before middle after : Machine ω}

theorem refl : Spares slots bound before before :=
  ⟨fun _ _ => rfl, Nat.le_refl _, fun _ _ _ => rfl⟩

theorem trans (hfirst : Spares slots bound before middle)
    (hsecond : Spares slots' bound' middle after) (hle : bound ≤ bound')
    (hslots : ∀ slot ∈ slots', slot < before.memory.length → slot ∈ slots) :
    Spares slots bound before after where
  registers register hregister := by
    rw [hsecond.registers register (Nat.lt_of_lt_of_le hregister hle),
      hfirst.registers register hregister]
  length := Nat.le_trans hfirst.length hsecond.length
  memory slot hslot hnot := by
    rw [hsecond.memory slot (Nat.lt_of_lt_of_le hslot hfirst.length)
      (fun hmem => hnot (hslots slot hmem hslot)), hfirst.memory slot hslot hnot]

theorem write {id : Nat} (hle : bound ≤ id) (value : Value) :
    Spares slots bound before (before.write id value) where
  registers register hregister := by
    have hne : register ≠ id := by omega
    simp [Machine.write, hne]
  length := Nat.le_refl _
  memory _ _ _ := rfl

theorem thenWrite {id : Nat} (hspares : Spares slots bound before middle) (hle : bound ≤ id)
    (value : Value) : Spares slots bound before (middle.write id value) :=
  hspares.trans (write hle value : Spares [] bound middle _) (Nat.le_refl _) (by simp)

theorem allocate {id : Nat} (hle : bound ≤ id) (value : Value) :
    Spares slots bound before (before.allocate.write id value) where
  registers register hregister := by
    have hne : register ≠ id := by omega
    simp [Machine.write, Machine.allocate, hne]
  length := by simp [Machine.write, Machine.allocate]
  memory slot hslot _ := by
    simp [Machine.write, Machine.allocate, List.getElem?_append_left hslot]

theorem store {slot : Nat} (value : Value) :
    Spares [slot] bound before (before.store slot value) where
  registers _ _ := rfl
  length := by simp [Machine.store]
  memory other _ hnot := by
    have hne : slot ≠ other := fun heq => hnot (by simp [heq])
    simp [Machine.store, hne]

theorem outside {outside : Outside ω} :
    Spares slots bound before { before with outside := outside } :=
  ⟨fun _ _ => rfl, Nat.le_refl _, fun _ _ _ => rfl⟩

theorem mono (hspares : Spares slots bound before after) (hle : bound' ≤ bound)
    (hslots : ∀ slot ∈ slots, slot < before.memory.length → slot ∈ slots') :
    Spares slots' bound' before after :=
  refl.trans hspares hle hslots

end Spares

/-- A value of the text and what it stands for. -/
structure Holds (machine : Machine ω) (bound : Nat) (value : LlvmValue) (found : Value)
    (type : TypeRef) : Prop where
  operand : machine.operand value = some found
  below : ∀ register ∈ value.registers, register < bound
  type_eq : value.type = type
  hasType : found.HasType type

theorem operand_eq {machine machine' : Machine ω} {value : LlvmValue}
    (hsame : ∀ register ∈ value.registers,
      machine'.registers register = machine.registers register) :
    machine'.operand value = machine.operand value := by
  obtain ⟨type, data⟩ := value
  cases data with
  | reg id => exact hsame id (List.mem_singleton.mpr rfl)
  | int | bool | null | stray | void => rfl

theorem Holds.spares {machine machine' : Machine ω} {slots : List Nat} {bound bound' : Nat}
    {value : LlvmValue} {found : Value} {type : TypeRef}
    (hholds : Holds machine bound value found type)
    (hspares : Spares slots bound machine machine') (hle : bound ≤ bound') :
    Holds machine' bound' value found type where
  operand := by
    rw [operand_eq fun register hregister => hspares.registers register (hholds.below _ hregister)]
    exact hholds.operand
  below register hregister := Nat.lt_of_lt_of_le (hholds.below register hregister) hle
  type_eq := hholds.type_eq
  hasType := hholds.hasType

/-- The result of an instruction. -/
theorem Holds.written {machine : Machine ω} {id : Nat} {found : Value} {type : TypeRef}
    (htype : found.HasType type) :
    Holds (machine.write id found) (id + 1) (.register type id) found type where
  operand := by simp [Machine.operand, LlvmValue.register, Machine.write]
  below register hregister := by
    have heq : register = id := List.mem_singleton.mp hregister
    omega
  type_eq := rfl
  hasType := htype

/-! Locals: what the checker, the emitter, the source and the machine each know of them. -/

structure Entry where
  type : TypeRef
  isMutable : Bool
  register : Nat
  slot : Nat
  value : Value

abbrev Joint := List (Name × Entry)

namespace Joint

def store (joint : Joint) : Store :=
  joint.map (Prod.map id fun entry => ⟨entry.value, entry.isMutable⟩)

def bindings (joint : Joint) : List (Name × Binding) :=
  joint.map (Prod.map id fun entry => ⟨entry.type, entry.register⟩)

def types (joint : Joint) : List (Name × LocalType) :=
  joint.map (Prod.map id fun entry => ⟨entry.type, entry.isMutable⟩)

def slots (joint : Joint) : List Nat := joint.map fun entry => entry.2.slot

/-- Everything but the values that may change. -/
def layout (joint : Joint) : List (Name × TypeRef × Bool × Nat × Nat × Option Value) :=
  joint.map (Prod.map id fun entry => (entry.type, entry.isMutable, entry.register, entry.slot,
    if entry.isMutable then none else some entry.value))

theorem lookup_map {β γ : Type} (change : β → γ) (entries : List (Name × β)) (name : Name) :
    (entries.map (Prod.map id change)).lookup name = (entries.lookup name).map change := by
  induction entries with
  | nil => rfl
  | cons entry rest ih =>
      obtain ⟨key, found⟩ := entry
      simp only [List.map_cons, Prod.map_apply, id_eq, List.lookup_cons, ih]
      cases name == key <;> rfl

theorem bindings_of_layout {joint joint' : Joint} (hlayout : joint'.layout = joint.layout) :
    joint'.bindings = joint.bindings := by
  have hmap := congrArg (List.map (Prod.map id
    fun entry : TypeRef × Bool × Nat × Nat × Option Value => (⟨entry.1, entry.2.2.1⟩ : Binding)))
    hlayout
  rw [layout, layout, List.map_map, List.map_map] at hmap
  exact hmap

theorem types_of_layout {joint joint' : Joint} (hlayout : joint'.layout = joint.layout) :
    joint'.types = joint.types := by
  have hmap := congrArg (List.map (Prod.map id
    fun entry : TypeRef × Bool × Nat × Nat × Option Value => (⟨entry.1, entry.2.1⟩ : LocalType)))
    hlayout
  rw [layout, layout, List.map_map, List.map_map] at hmap
  exact hmap

theorem slots_of_layout {joint joint' : Joint} (hlayout : joint'.layout = joint.layout) :
    joint'.slots = joint.slots := by
  have hmap := congrArg (List.map
    fun entry : Name × TypeRef × Bool × Nat × Nat × Option Value => entry.2.2.2.2.1) hlayout
  rw [layout, layout, List.map_map, List.map_map] at hmap
  exact hmap

end Joint

/-- The slots of the locals hold their values. -/
structure Held (joint : Joint) (bound : Nat) (machine : Machine ω) : Prop where
  below : ∀ entry ∈ joint, entry.2.register < bound
  register : ∀ entry ∈ joint,
    machine.registers entry.2.register = some (.ptr (some ⟨entry.2.slot, []⟩))
  memory : ∀ entry ∈ joint, machine.memory[entry.2.slot]? = some entry.2.value
  hasType : ∀ entry ∈ joint, entry.2.value.HasType entry.2.type
  apart : joint.slots.Nodup

namespace Held

variable {joint joint' : Joint} {bound bound' : Nat} {machine machine' : Machine ω}

theorem slot_lt (hheld : Held joint bound machine) {entry : Name × Entry} (hentry : entry ∈ joint) :
    entry.2.slot < machine.memory.length :=
  (List.getElem?_eq_some_iff.mp (hheld.memory entry hentry)).1

/-- Code that works on slots of its own. -/
theorem spares (hheld : Held joint bound machine) (hspares : Spares [] bound machine machine')
    (hle : bound ≤ bound') : Held joint bound' machine' where
  below entry hentry := Nat.lt_of_lt_of_le (hheld.below entry hentry) hle
  register entry hentry := by
    rw [hspares.registers _ (hheld.below entry hentry), hheld.register entry hentry]
  memory entry hentry := by
    rw [hspares.memory _ (hheld.slot_lt hentry) List.not_mem_nil, hheld.memory entry hentry]
  hasType := hheld.hasType
  apart := hheld.apart

theorem tail {entry : Name × Entry} (hheld : Held (entry :: joint) bound machine) :
    Held joint bound machine where
  below other hother := hheld.below other (List.mem_cons_of_mem _ hother)
  register other hother := hheld.register other (List.mem_cons_of_mem _ hother)
  memory other hother := hheld.memory other (List.mem_cons_of_mem _ hother)
  hasType other hother := hheld.hasType other (List.mem_cons_of_mem _ hother)
  apart := (List.nodup_cons.mp hheld.apart).2

/-- A new local in a slot of its own. -/
theorem cons (hheld : Held joint bound machine) {name : Name} {entry : Entry}
    (hbelow : entry.register < bound)
    (hregister : machine.registers entry.register = some (.ptr (some ⟨entry.slot, []⟩)))
    (hmemory : machine.memory[entry.slot]? = some entry.value)
    (htype : entry.value.HasType entry.type) (hfresh : entry.slot ∉ joint.slots) :
    Held ((name, entry) :: joint) bound machine where
  below := List.forall_mem_cons.mpr ⟨hbelow, hheld.below⟩
  register := List.forall_mem_cons.mpr ⟨hregister, hheld.register⟩
  memory := List.forall_mem_cons.mpr ⟨hmemory, hheld.memory⟩
  hasType := List.forall_mem_cons.mpr ⟨htype, hheld.hasType⟩
  apart := List.nodup_cons.mpr ⟨hfresh, hheld.apart⟩

theorem slots_lt (hheld : Held joint bound machine) {slot : Nat} (hslot : slot ∈ joint.slots) :
    slot < machine.memory.length := by
  obtain ⟨entry, hentry, rfl⟩ := List.mem_map.mp hslot
  exact hheld.slot_lt hentry

theorem memory_store (hheld : Held joint bound machine) {slot : Nat} (hslot : slot ∉ joint.slots)
    (value : Value) : Held joint bound (machine.store slot value) where
  below := hheld.below
  register := hheld.register
  memory entry hentry := by
    have hne : slot ≠ entry.2.slot := fun heq =>
      hslot (heq ▸ List.mem_map_of_mem hentry)
    rw [← hheld.memory entry hentry]
    simp [Machine.store, hne]
  hasType := hheld.hasType
  apart := hheld.apart

/-- An assignment is a store to the slot that the name is bound to. -/
theorem assign {name : Name} {value : Value} {changed : Store}
    (hassign : joint.store.assign name value = some changed)
    (hheld : Held joint bound machine) :
    ∃ entry joint', joint.lookup name = some entry ∧ entry.slot ∈ joint.slots ∧
      machine.registers entry.register = some (.ptr (some ⟨entry.slot, []⟩)) ∧
      Joint.store joint' = changed ∧ Joint.layout joint' = joint.layout ∧
      (value.HasType entry.type → Held joint' bound (machine.store entry.slot value)) := by
  induction joint generalizing changed with
  | nil => cases hassign
  | cons first rest ih =>
      obtain ⟨key, entry⟩ := first
      simp only [Joint.store, List.map_cons, Prod.map_apply, id_eq, Store.assign] at hassign
      cases hkey : name == key with
      | true =>
          simp only [hkey, if_true] at hassign
          cases hmutable : entry.isMutable with
          | false => simp [hmutable] at hassign
          | true =>
              simp only [hmutable, if_true, Option.some.injEq] at hassign
              refine ⟨entry, (key, { entry with value := value }) :: rest, ?_, ?_, ?_, ?_, ?_,
                fun htype => ?_⟩
              · simp [List.lookup_cons, hkey]
              · exact List.mem_cons_self
              · exact hheld.register _ List.mem_cons_self
              · simp [← hassign, Joint.store, hmutable]
              · simp [Joint.layout, hmutable]
              · have hfresh := (List.nodup_cons.mp hheld.apart).1
                refine .cons (hheld.tail.memory_store hfresh value)
                  (hheld.below _ List.mem_cons_self) (hheld.register _ List.mem_cons_self) ?_ htype
                  hfresh
                have hlt := hheld.slot_lt (List.mem_cons_self (a := (key, entry)))
                simp [Machine.store, hlt]
      | false =>
          simp only [hkey, Bool.false_eq_true, if_false, Option.map_eq_some_iff] at hassign
          obtain ⟨restStore, hrest, rfl⟩ := hassign
          obtain ⟨found, joint', hlookup, hslot, hregister, hstore, hlayout, hchange⟩ :=
            ih hrest hheld.tail
          refine ⟨found, (key, entry) :: joint', ?_, ?_, hregister, ?_, ?_, fun htype => ?_⟩
          · simpa [List.lookup_cons, hkey] using hlookup
          · exact List.mem_cons_of_mem _ hslot
          · simp [← hstore, Joint.store]
          · simp only [Joint.layout, List.map_cons] at hlayout ⊢
            rw [hlayout]
          · have hfresh : entry.slot ∉ Joint.slots rest := (List.nodup_cons.mp hheld.apart).1
            have hne : found.slot ≠ entry.slot := fun heq => hfresh (heq ▸ hslot)
            refine .cons (hchange htype) (hheld.below _ List.mem_cons_self)
              (hheld.register _ List.mem_cons_self) ?_ (hheld.hasType _ List.mem_cons_self) ?_
            · rw [← hheld.memory (key, entry) List.mem_cons_self]
              simp [Machine.store, hne]
            · rw [Joint.slots_of_layout hlayout]
              exact hfresh

end Held

/-! Scopes, with the frames forgotten. -/

theorem frame_find?_eq {β γ : Type} (frame : Frame Name β γ) (name : Name) :
    frame.find? name = frame.bindings.lookup name := by
  obtain ⟨bindings, info⟩ := frame
  induction bindings with
  | nil => rfl
  | cons entry rest ih =>
      obtain ⟨key, found⟩ := entry
      by_cases heq : key = name
      · simp [Frame.find?, heq]
      · have hne : (name == key) = false := by simpa using Ne.symm heq
        simpa [Frame.find?, List.lookup_cons, heq, hne] using ih

theorem find?_eq_lookup {β γ : Type} (chain : Chain Name β γ) (name : Name) :
    (Chain.find? chain name).map Prod.snd = (chain.flatMap Frame.bindings).lookup name := by
  induction chain with
  | nil => rfl
  | cons frame outer ih =>
      rw [Chain.find?_cons, List.flatMap_cons, List.lookup_append, ← frame_find?_eq, ← ih]
      cases frame.find? name <;> rfl

/-- The scopes of the emitter and of the checker at the same point. -/
structure Scoped (joint : Joint) (scope : Scope) (types : TypeEnv) : Prop where
  scope_ne : scope ≠ []
  types_ne : types ≠ []
  bindings : scope.flatMap Frame.bindings = joint.bindings
  types : types.flatMap Frame.bindings = joint.types

namespace Scoped

variable {joint joint' : Joint} {scope : Scope} {types : TypeEnv}

theorem push (hagrees : Scoped joint scope types) : Scoped joint scope.push types.push where
  scope_ne := List.cons_ne_nil _ _
  types_ne := List.cons_ne_nil _ _
  bindings := hagrees.bindings
  types := hagrees.types

theorem define (hagrees : Scoped joint scope types) (name : Name) (entry : Entry) :
    Scoped ((name, entry) :: joint) (scope.define name entry.type entry.register)
      (types.define name entry.type entry.isMutable) := by
  obtain ⟨hscope, htypes, hbindings, hentries⟩ := hagrees
  cases scope with
  | nil => exact absurd rfl hscope
  | cons frame outer =>
      cases types with
      | nil => exact absurd rfl htypes
      | cons typeFrame typeOuter =>
          refine ⟨List.cons_ne_nil _ _, List.cons_ne_nil _ _, ?_, ?_⟩
          · simpa [Scope.define, Chain.define, Frame.define, Joint.bindings] using hbindings
          · simpa [TypeEnv.define, Chain.define, Frame.define, Joint.types] using hentries

theorem layout (hagrees : Scoped joint scope types) (hlayout : joint'.layout = joint.layout) :
    Scoped joint' scope types where
  scope_ne := hagrees.scope_ne
  types_ne := hagrees.types_ne
  bindings := hagrees.bindings.trans (Joint.bindings_of_layout hlayout).symm
  types := hagrees.types.trans (Joint.types_of_layout hlayout).symm

theorem binding (hagrees : Scoped joint scope types) {name : Name} {entry : Entry}
    (hlookup : joint.lookup name = some entry) :
    (Chain.find? scope name).map Prod.snd = some ⟨entry.type, entry.register⟩ := by
  rw [find?_eq_lookup, hagrees.bindings, Joint.bindings, Joint.lookup_map, hlookup]
  rfl

theorem typeOf? (hagrees : Scoped joint scope types) {name : Name} {entry : Entry}
    (hlookup : joint.lookup name = some entry) : types.typeOf? name = some entry.type := by
  have hfind := find?_eq_lookup types name
  rw [hagrees.types, Joint.types, Joint.lookup_map, hlookup] at hfind
  obtain ⟨found, hfound, heq⟩ := Option.map_eq_some_iff.mp hfind
  rw [TypeEnv.typeOf?, hfound]
  exact congrArg (fun held : LocalType => some held.type) heq

end Scoped

end Llvm

end Cnegative
