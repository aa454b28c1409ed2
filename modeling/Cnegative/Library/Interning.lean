import Mathlib.Data.List.Basic
import Mathlib.Data.List.Nodup
import Mathlib.Order.Basic

namespace Library

/-! Tables that number the values put into them, each value once. -/

structure Interned.Entry (α : Type) where
  value : α
  id : Nat
  deriving DecidableEq, Repr

/-- The entries stand newest first. -/
structure Interned (α : Type) where
  entries : List (Interned.Entry α)
  nextId : Nat
  numbered : entries.map Interned.Entry.id = (List.range nextId).reverse
  distinct : (entries.map Interned.Entry.value).Nodup

namespace Interned

variable {α : Type}

def empty : Interned α := ⟨[], 0, rfl, .nil⟩

def values (table : Interned α) : List α := table.entries.reverse.map Entry.value

instance : Preorder (Interned α) where
  le table table' := table.entries <:+ table'.entries
  le_refl table := List.suffix_refl table.entries
  le_trans _ _ _ hle hle' := List.IsSuffix.trans hle hle'

theorem mem_values {table : Interned α} {value : α} :
    value ∈ table.values ↔ ∃ entry ∈ table.entries, entry.value = value := by
  simp [values]

theorem mem_values_of_le {table table' : Interned α} (hle : table ≤ table') {value : α}
    (hmem : value ∈ table.values) : value ∈ table'.values := by
  obtain ⟨entry, hentry, hvalue⟩ := mem_values.mp hmem
  exact mem_values.mpr ⟨entry, List.IsSuffix.subset hle hentry, hvalue⟩

theorem nodup_values (table : Interned α) : table.values.Nodup := by
  rw [values, List.map_reverse, List.nodup_reverse]
  exact table.distinct

theorem nodup_ids (table : Interned α) : (table.entries.map Entry.id).Nodup := by
  rw [table.numbered, List.nodup_reverse]
  exact List.nodup_range

theorem getElem?_values {table : Interned α} {entry : Entry α} :
    entry ∈ table.entries ↔ table.values[entry.id]? = some entry.value := by
  have hids : table.entries.reverse.map Entry.id = List.range table.nextId := by
    rw [List.map_reverse, table.numbered, List.reverse_reverse]
  have hplace : ∀ position (found : Entry α), table.entries.reverse[position]? = some found →
      found.id = position := by
    intro position found hfound
    have hid : (table.entries.reverse.map Entry.id)[position]? = some found.id := by
      rw [List.getElem?_map, hfound, Option.map_some]
    rw [hids, List.getElem?_eq_some_iff] at hid
    obtain ⟨hlt, hid⟩ := hid
    rw [← hid, List.getElem_range]
  constructor
  · intro hentry
    obtain ⟨position, hposition⟩ := List.mem_iff_getElem?.mp (List.mem_reverse.mpr hentry)
    rw [values, List.getElem?_map, hplace _ _ hposition, hposition, Option.map_some]
  · intro hvalue
    rw [values, List.getElem?_map, Option.map_eq_some_iff] at hvalue
    obtain ⟨found, hfound, hsame⟩ := hvalue
    have hid := hplace _ _ hfound
    rw [← List.mem_reverse]
    obtain ⟨value, id⟩ := entry
    obtain ⟨value', id'⟩ := found
    obtain rfl : value' = value := hsame
    obtain rfl : id' = id := hid
    exact List.mem_of_getElem? hfound

variable [BEq α] [LawfulBEq α]

def find? (table : Interned α) (value : α) : Option (Entry α) :=
  table.entries.find? fun entry => entry.value == value

theorem find?_eq_none {table : Interned α} {value : α} (hfind : table.find? value = none) :
    value ∉ table.entries.map Entry.value := by
  intro hmem
  obtain ⟨entry, hentry, rfl⟩ := List.mem_map.mp hmem
  exact List.find?_eq_none.mp hfind entry hentry (beq_self_eq_true _)

theorem find?_mem {table : Interned α} {value : α} {entry : Entry α}
    (hfind : table.find? value = some entry) : entry ∈ table.entries ∧ entry.value = value := by
  have hbeq := List.find?_some hfind
  exact ⟨List.mem_of_find?_eq_some hfind, eq_of_beq hbeq⟩

/-- A value that is not there takes the next number. -/
def intern (table : Interned α) (value : α) : Interned α :=
  match hfind : table.find? value with
  | some _ => table
  | none =>
      { entries := ⟨value, table.nextId⟩ :: table.entries
        nextId := table.nextId + 1
        numbered := by
          rw [List.map_cons, table.numbered, List.range_succ, List.reverse_append]
          rfl
        distinct := List.nodup_cons.mpr ⟨find?_eq_none hfind, table.distinct⟩ }

theorem le_intern (table : Interned α) (value : α) : table ≤ table.intern value := by
  unfold intern
  split
  · exact le_refl table
  · exact List.suffix_cons _ _

theorem mem_intern (table : Interned α) (value : α) : value ∈ (table.intern value).values := by
  unfold intern
  split
  · next entry hfind =>
      exact mem_values.mpr ⟨entry, find?_mem hfind⟩
  · exact mem_values.mpr ⟨_, List.mem_cons_self, rfl⟩

theorem find?_eq_some {table : Interned α} {value : α} {entry : Entry α} :
    table.find? value = some entry ↔ entry ∈ table.entries ∧ entry.value = value := by
  constructor
  · exact find?_mem
  · rintro ⟨hentry, rfl⟩
    cases hfind : table.find? entry.value with
    | none => exact absurd (List.mem_map_of_mem hentry) (find?_eq_none hfind)
    | some found =>
        obtain ⟨hfound, hvalue⟩ := find?_mem hfind
        rw [List.inj_on_of_nodup_map table.distinct hfound hentry hvalue]

/-- A search by position among the values answers with the number of the entry. -/
theorem findIdx?_values {table : Interned α} {value : α} {entry : Entry α}
    (hfind : table.find? value = some entry) :
    table.values.findIdx? (fun other => other == value) = some entry.id := by
  obtain ⟨hentry, rfl⟩ := find?_eq_some.mp hfind
  obtain ⟨hlt, hvalue⟩ := List.getElem?_eq_some_iff.mp (getElem?_values.mp hentry)
  rw [List.findIdx?_eq_some_iff_getElem]
  refine ⟨hlt, by rw [hvalue, beq_self_eq_true], ?_⟩
  intro position hposition hbeq
  have hsame := (eq_of_beq hbeq).trans hvalue.symm
  exact Nat.ne_of_lt hposition ((List.Nodup.getElem_inj_iff table.nodup_values).mp hsame)

end Interned

/-! Folds whose steps only add. -/

section

variable {β γ : Type} [Preorder β] {step : β → γ → β}

theorem le_foldl (items : List γ) (hstep : ∀ item ∈ items, ∀ state, state ≤ step state item)
    (state : β) : state ≤ items.foldl step state := by
  induction items generalizing state with
  | nil => exact le_refl state
  | cons item rest ih =>
      exact (hstep item List.mem_cons_self state).trans
        (ih (fun other hother => hstep other (List.mem_cons_of_mem item hother)) _)

/-- What the step of one item brings about stays. -/
theorem foldl_of_mem {items : List γ} {item : γ} (hitem : item ∈ items)
    (hstep : ∀ item ∈ items, ∀ state, state ≤ step state item) {holds : β → Prop}
    (hstays : ∀ state state', state ≤ state' → holds state → holds state')
    (hholds : ∀ state, holds (step state item)) (state : β) :
    holds (items.foldl step state) := by
  obtain ⟨before, behind, rfl⟩ := List.append_of_mem hitem
  rw [List.foldl_append, List.foldl_cons]
  exact hstays _ _ (le_foldl behind (fun other hother => hstep other
    (List.mem_append_right before (List.mem_cons_of_mem item hother))) _) (hholds _)

end

theorem Interned.mem_values_foldl {α γ : Type} {step : Interned α → γ → Interned α}
    {items : List γ} {item : γ} (hitem : item ∈ items)
    (hstep : ∀ item ∈ items, ∀ table, table ≤ step table item) {value : α}
    (hmem : ∀ table, value ∈ (step table item).values) (table : Interned α) :
    value ∈ (items.foldl step table).values :=
  foldl_of_mem hitem hstep (fun _ _ hle hvalue => mem_values_of_le hle hvalue) hmem table

end Library
