import Cnegative.Library.Probing
import Cnegative.Resolution.Checker

namespace Cnegative

namespace NameTable

open Library

/-! The tables behind the name maps of the checker: open addressing, with any hash function on
any keys. -/

variable {κ ν : Type}

/-- `cn_name_map_entry`; a slot is `none` while it is not `occupied`. -/
structure Entry (κ ν : Type) where
  key : κ
  value : ν
  index : Nat
  deriving DecidableEq, Repr

abbrev Slots (κ ν : Type) := Nat → Option (Entry κ ν)

structure Map (κ ν : Type) where
  entries : Slots κ ν
  capacity : Nat
  count : Nat

/-- The loop of `cn_name_map_next_capacity`, for so many turns. -/
def nextCapacityFrom (required : Nat) : Nat → Nat → Nat
  | 0, capacity => capacity
  | turns + 1, capacity =>
      if capacity < required then nextCapacityFrom required turns (capacity * 2) else capacity

def nextCapacity (required : Nat) : Nat :=
  nextCapacityFrom required required 16

variable [DecidableEq κ]

/-- The loop of `cn_name_map_find_slot`; `none` is a loop that has not ended after so many
turns. -/
def findSlotFrom (entries : Slots κ ν) (capacity : Nat) (key : κ) : Nat → Nat → Option Nat
  | 0, _ => none
  | turns + 1, index =>
      match entries index with
      | some entry =>
          if entry.key = key then some index
          else findSlotFrom entries capacity key turns ((index + 1) &&& (capacity - 1))
      | none => some index

def findSlot (hash : κ → Nat) (entries : Slots κ ν) (capacity : Nat) (key : κ) : Option Nat :=
  findSlotFrom entries capacity key capacity (hash key &&& (capacity - 1))

/-- The loop of `cn_name_map_reserve` over the old slots. -/
def reinsert (hash : κ → Nat) (entries : Slots κ ν) (newCapacity : Nat) : Nat → Option (Slots κ ν)
  | 0 => some fun _ => none
  | i + 1 => do
      let newEntries ← reinsert hash entries newCapacity i
      match entries i with
      | none => return newEntries
      | some entry =>
          let slot ← findSlot hash newEntries newCapacity entry.key
          return Function.update newEntries slot (some entry)

/-- `cn_name_map_reserve`; `allocated` is the answer of `calloc`. -/
def reserve (hash : κ → Nat) (allocated : Bool) (map : Map κ ν) (required : Nat) :
    Option (Bool × Map κ ν) :=
  if required ≤ map.capacity then some (true, map)
  else if !allocated then some (false, map)
  else
    let newCapacity := nextCapacity required
    (reinsert hash map.entries newCapacity map.capacity).map fun newEntries =>
      (true, { map with entries := newEntries, capacity := newCapacity })

structure Call (κ ν : Type) where
  entry : Entry κ ν
  replace : Bool
  allocated : Bool

def requiredCapacity (map : Map κ ν) : Nat :=
  let required := if map.capacity = 0 then 16 else map.capacity
  if required * 7 ≤ (map.count + 1) * 10 then required * 2 else required

/-- `cn_name_map_insert`. -/
def insert (hash : κ → Nat) (map : Map κ ν) (call : Call κ ν) : Option (Bool × Map κ ν) := do
  let (reserved, map) ← reserve hash call.allocated map (requiredCapacity map)
  if !reserved then return (false, map)
  let slot ← findSlot hash map.entries map.capacity call.entry.key
  match map.entries slot with
  | some old =>
      if !call.replace then return (false, map)
      let entry := { old with value := call.entry.value, index := call.entry.index }
      return (true, { map with entries := Function.update map.entries slot (some entry) })
  | none =>
      return (true, { map with
        entries := Function.update map.entries slot (some call.entry)
        count := map.count + 1 })

def lookupFrom (entries : Slots κ ν) (capacity : Nat) (key : κ) :
    Nat → Nat → Option (Option (Entry κ ν))
  | 0, _ => none
  | turns + 1, index =>
      match entries index with
      | some entry =>
          if entry.key = key then some (some entry)
          else lookupFrom entries capacity key turns ((index + 1) &&& (capacity - 1))
      | none => some none

def lookupEntry (hash : κ → Nat) (map : Map κ ν) (key : κ) : Option (Option (Entry κ ν)) :=
  if map.capacity = 0 then some none
  else lookupFrom map.entries map.capacity key map.capacity (hash key &&& (map.capacity - 1))

def lookupValue (hash : κ → Nat) (map : Map κ ν) (key : κ) : Option (Option ν) :=
  (lookupEntry hash map key).map (Option.map Entry.value)

/-- `cn_name_map_lookup_index`. -/
def lookupIndex (hash : κ → Nat) (map : Map κ ν) (key : κ) : Option (Option Nat) :=
  (lookupEntry hash map key).map (Option.map Entry.index)

/-! What a map is for: it answers from the insertions that took effect, the newest first. -/

def empty : Map κ ν where
  entries _ := none
  capacity := 0
  count := 0

def Effective (call : Call κ ν) (log : List (Entry κ ν)) : Prop :=
  call.replace = true ∨ ∀ entry ∈ log, entry.key ≠ call.entry.key

def logged (result : Bool) (call : Call κ ν) (log : List (Entry κ ν)) : List (Entry κ ν) :=
  if result then call.entry :: log else log

def last (log : List (Entry κ ν)) (key : κ) : Option (Entry κ ν) :=
  log.find? fun entry => entry.key = key

inductive Reachable (hash : κ → Nat) : Map κ ν → List (Entry κ ν) → Prop
  | start : Reachable hash empty []
  | insert {map after : Map κ ν} {log : List (Entry κ ν)} {call : Call κ ν} {result : Bool}
      (hreachable : Reachable hash map log)
      (hinsert : NameTable.insert hash map call = some (result, after)) :
      Reachable hash after (logged result call log)

structure Holds (hash : κ → Nat) (map : Map κ ν) (log : List (Entry κ ν)) : Prop where
  capacity : map.capacity = 0 ∨ 16 ≤ map.capacity ∧ ∃ k, map.capacity = 2 ^ k
  load : map.capacity ≠ 0 → map.count * 10 < map.capacity * 7
  count : map.count = (log.map Entry.key).toFinset.card
  probed : Probed Entry.key hash map.capacity map.entries
  cells : ∀ entry, (∃ index, map.entries index = some entry) ↔ last log entry.key = some entry

section

variable {hash : κ → Nat} {entries : Slots κ ν} {map : Map κ ν} {log : List (Entry κ ν)}

/-! The newest insertions. -/

theorem last_key {key : κ} {entry : Entry κ ν} (hlast : last log key = some entry) :
    entry.key = key := by
  have hfound := List.find?_some hlast
  exact of_decide_eq_true hfound

theorem last_mem {key : κ} {entry : Entry κ ν} (hlast : last log key = some entry) :
    entry ∈ log := List.mem_of_find?_eq_some hlast

theorem last_eq_none {key : κ} :
    last log key = none ↔ ∀ entry ∈ log, entry.key ≠ key := by
  rw [last, List.find?_eq_none]
  simp only [decide_eq_true_eq, ne_eq]

theorem last_cons (entry : Entry κ ν) (key : κ) :
    last (entry :: log) key = if entry.key = key then some entry else last log key := by
  rw [last, List.find?_cons]
  by_cases hkey : entry.key = key
  · rw [if_pos hkey, decide_eq_true hkey]
  · rw [if_neg hkey, decide_eq_false hkey]
    rfl

/-! The capacity. -/

omit [DecidableEq κ] in
theorem nextCapacityFrom_spec {required turns capacity : Nat} (hlarge : 16 ≤ capacity)
    (hpower : ∃ k, capacity = 2 ^ k) (hturns : required ≤ capacity + turns) :
    16 ≤ nextCapacityFrom required turns capacity ∧
      (∃ k, nextCapacityFrom required turns capacity = 2 ^ k) ∧
      required ≤ nextCapacityFrom required turns capacity := by
  induction turns generalizing capacity with
  | zero => exact ⟨hlarge, hpower, hturns⟩
  | succ turns ih =>
      rw [nextCapacityFrom]
      split
      next hless =>
        obtain ⟨k, hk⟩ := hpower
        exact ih (by omega) ⟨k + 1, by rw [hk, pow_succ]⟩ (by omega)
      next hless => exact ⟨hlarge, hpower, Nat.le_of_not_lt hless⟩

omit [DecidableEq κ] in
theorem nextCapacity_spec (required : Nat) :
    16 ≤ nextCapacity required ∧ (∃ k, nextCapacity required = 2 ^ k) ∧
      required ≤ nextCapacity required :=
  nextCapacityFrom_spec (Nat.le_refl 16) ⟨4, rfl⟩ (Nat.le_add_left _ _)

/-! The probe loops. -/

theorem findSlotFrom_spec {k turns start distance walked : Nat} {key : κ}
    (hstops : Stops Entry.key entries key ((start + distance) % 2 ^ k))
    (hbefore : ∀ before < distance, ¬ Stops Entry.key entries key ((start + before) % 2 ^ k))
    (hwalked : walked ≤ distance) (hturns : distance < walked + turns) :
    findSlotFrom entries (2 ^ k) key turns ((start + walked) % 2 ^ k) =
      some ((start + distance) % 2 ^ k) := by
  induction turns generalizing walked with
  | zero => omega
  | succ turns ih =>
      rw [findSlotFrom]
      obtain rfl | hless := Nat.eq_or_lt_of_le hwalked
      · cases hentry : entries ((start + walked) % 2 ^ k) with
        | none => rfl
        | some entry => exact if_pos (hstops entry hentry)
      · have hgoes := hbefore walked hless
        rw [Stops, not_forall] at hgoes
        obtain ⟨entry, hgoes⟩ := hgoes
        rw [Classical.not_imp] at hgoes
        obtain ⟨hentry, hkey⟩ := hgoes
        have hnext : ((start + walked) % 2 ^ k + 1) &&& (2 ^ k - 1) =
            (start + (walked + 1)) % 2 ^ k := by
          rw [Nat.and_two_pow_sub_one_eq_mod, Nat.mod_add_mod, Nat.add_assoc]
        rw [hentry]
        dsimp only
        rw [if_neg hkey, hnext]
        exact ih hless (by omega)

theorem findSlot_of_ends {k index : Nat} {key : κ}
    (hends : Ends Entry.key (2 ^ k) entries key (hash key) index) :
    findSlot hash entries (2 ^ k) key = some index := by
  obtain ⟨distance, hdistance, rfl, hstops, hbefore⟩ := hends
  rw [findSlot, Nat.and_two_pow_sub_one_eq_mod]
  show findSlotFrom entries (2 ^ k) key (2 ^ k) ((hash key + 0) % 2 ^ k) = _
  exact findSlotFrom_spec hstops hbefore (Nat.zero_le _) (by omega)

theorem lookupFrom_eq (capacity : Nat) (key : κ) (turns index : Nat) :
    lookupFrom entries capacity key turns index =
      (findSlotFrom entries capacity key turns index).map entries := by
  induction turns generalizing index with
  | zero => rfl
  | succ turns ih =>
      rw [lookupFrom, findSlotFrom]
      cases hentry : entries index with
      | none => exact congrArg some hentry.symm
      | some entry =>
          dsimp only
          split
          · exact congrArg some hentry.symm
          · exact ih _

/-! Growth. -/

/-- The new slots hold the entries of the old ones that were passed, each once. -/
theorem reinsert_spec {capacity k : Nat} (hprobed : Probed Entry.key hash capacity entries)
    (keys : Finset κ) (hkeys : ∀ index entry, entries index = some entry → entry.key ∈ keys)
    (hcard : keys.card < 2 ^ k) (i : Nat) :
    ∃ newEntries, reinsert hash entries (2 ^ k) i = some newEntries ∧
      Probed Entry.key hash (2 ^ k) newEntries ∧
      ∀ entry, (∃ slot, newEntries slot = some entry) ↔ ∃ index < i, entries index = some entry := by
  induction i with
  | zero =>
      refine ⟨fun _ => none, rfl, .empty .., fun entry => ?_⟩
      simp
  | succ i ih =>
      obtain ⟨newEntries, hnew, hnewProbed, hcells⟩ := ih
      rw [reinsert, hnew, Option.bind_eq_bind, Option.bind_some]
      cases hentry : entries i with
      | none =>
          refine ⟨newEntries, rfl, hnewProbed, fun entry => (hcells entry).trans ?_⟩
          constructor
          · rintro ⟨index, hindex, hfound⟩
            exact ⟨index, by omega, hfound⟩
          · rintro ⟨index, hindex, hfound⟩
            refine ⟨index, Nat.lt_of_le_of_ne (by omega) ?_, hfound⟩
            rintro rfl
            rw [hentry] at hfound
            cases hfound
      | some entry =>
          have hempty := hnewProbed.exists_empty keys (fun slot found hfound => by
            obtain ⟨index, -, hold⟩ := (hcells found).mp ⟨slot, hfound⟩
            exact hkeys index found hold) hcard
          have hwalk : ∃ slot, Ends Entry.key (2 ^ k) newEntries entry.key (hash entry.key) slot :=
            exists_ends hempty
          obtain ⟨slot, hends⟩ := hwalk
          refine ⟨Function.update newEntries slot (some entry), ?_, hnewProbed.put hends,
            fun found => ?_⟩
          · dsimp only
            rw [findSlot_of_ends hends]
            rfl
          · rw [hnewProbed.put_cells hends, hcells]
            constructor
            · rintro (rfl | ⟨-, index, hindex, hfound⟩)
              · exact ⟨i, Nat.lt_succ_self i, hentry⟩
              · exact ⟨index, by omega, hfound⟩
            · rintro ⟨index, hindex, hfound⟩
              obtain hless | rfl := Nat.lt_succ_iff_lt_or_eq.mp hindex
              · refine Or.inr ⟨fun hkey => ?_, index, hless, hfound⟩
                have hsame := hprobed.distinct index i found entry hfound hentry hkey
                omega
              · rw [hentry] at hfound
                exact Or.inl (Option.some.inj hfound).symm

theorem Holds.keys (hholds : Holds hash map log) (index : Nat) (entry : Entry κ ν)
    (hentry : map.entries index = some entry) : entry.key ∈ (log.map Entry.key).toFinset := by
  rw [List.mem_toFinset]
  exact List.mem_map_of_mem (last_mem ((hholds.cells entry).mp ⟨index, hentry⟩))

theorem Holds.log_nil (hholds : Holds hash map log) (hcapacity : map.capacity = 0) : log = [] := by
  cases log with
  | nil => rfl
  | cons entry rest =>
      have hlast : last (entry :: rest) entry.key = some entry := by
        rw [last_cons, if_pos rfl]
      obtain ⟨index, hindex⟩ := (hholds.cells entry).mpr hlast
      have hinside := hholds.probed.inside index entry hindex
      omega

theorem Holds.exists_empty (hholds : Holds hash map log) (hcapacity : map.capacity ≠ 0) :
    ∃ index < map.capacity, map.entries index = none := by
  refine hholds.probed.exists_empty _ hholds.keys ?_
  have hload := hholds.load hcapacity
  rw [← hholds.count]
  omega

theorem Holds.reserve (hholds : Holds hash map log) (allocated : Bool) (required : Nat) :
    ∃ reserved after, reserve hash allocated map required = some (reserved, after) ∧
      Holds hash after log ∧ after.count = map.count ∧
      (reserved = true ↔ required ≤ map.capacity ∨ allocated = true) ∧
      (reserved = true → required ≤ after.capacity) ∧ (reserved = false → after = map) := by
  by_cases hroom : required ≤ map.capacity
  · exact ⟨true, map, if_pos hroom, hholds, rfl, iff_of_true rfl (.inl hroom), fun _ => hroom,
      fun hfalse => (by cases hfalse)⟩
  cases allocated with
  | false =>
      refine ⟨false, map, ?_, hholds, rfl, ?_, fun hfalse => (by cases hfalse), fun _ => rfl⟩
      · rw [NameTable.reserve, if_neg hroom]
        rfl
      · simp [hroom]
  | true =>
      obtain ⟨hlarge, ⟨k, hpower⟩, hrequired⟩ := nextCapacity_spec required
      have hgrows : map.count * 10 < 2 ^ k * 7 := by
        by_cases hcapacity : map.capacity = 0
        · have hcount := hholds.count
          rw [hholds.log_nil hcapacity, List.map_nil, List.toFinset_nil, Finset.card_empty] at hcount
          omega
        · have hload := hholds.load hcapacity
          omega
      obtain ⟨newEntries, hnew, hprobed, hcells⟩ := reinsert_spec hholds.probed _ hholds.keys
        (k := k) (by rw [← hholds.count]; omega) map.capacity
      refine ⟨true, { map with entries := newEntries, capacity := 2 ^ k }, ?_, ?_, rfl,
        iff_of_true rfl (.inr rfl), fun _ => hpower ▸ hrequired, fun hfalse => (by cases hfalse)⟩
      · rw [NameTable.reserve, if_neg hroom]
        dsimp only
        rw [hpower, hnew]
        rfl
      · refine ⟨.inr ⟨hpower ▸ hlarge, k, rfl⟩, fun _ => hgrows, hholds.count, hprobed,
          fun entry => ?_⟩
        rw [← hholds.cells, hcells]
        constructor
        · rintro ⟨index, -, hentry⟩
          exact ⟨index, hentry⟩
        · rintro ⟨index, hentry⟩
          exact ⟨index, hholds.probed.inside index entry hentry, hentry⟩

/-! Insertion. -/

theorem Holds.required (hholds : Holds hash map log) :
    0 < requiredCapacity map ∧ (map.count + 1) * 10 < requiredCapacity map * 7 := by
  rw [requiredCapacity]
  by_cases hcapacity : map.capacity = 0
  · have hcount := hholds.count
    rw [hholds.log_nil hcapacity, List.map_nil, List.toFinset_nil, Finset.card_empty] at hcount
    rw [if_pos hcapacity, if_neg (by omega)]
    omega
  · obtain hzero | ⟨hlarge, -⟩ := hholds.capacity
    · exact absurd hzero hcapacity
    have hload := hholds.load hcapacity
    rw [if_neg hcapacity]
    split <;> omega

theorem Holds.put (hholds : Holds hash map log) {entry : Entry κ ν} {slot count : Nat}
    (hends : Ends Entry.key map.capacity map.entries entry.key (hash entry.key) slot)
    (hcount : count = ((entry :: log).map Entry.key).toFinset.card)
    (hload : count * 10 < map.capacity * 7) :
    Holds hash ⟨Function.update map.entries slot (some entry), map.capacity, count⟩
      (entry :: log) where
  capacity := hholds.capacity
  load _ := hload
  count := hcount
  probed := hholds.probed.put hends
  cells found := by
    rw [hholds.probed.put_cells hends, hholds.cells, last_cons]
    by_cases hkey : entry.key = found.key
    · rw [if_pos hkey, Option.some.injEq]
      constructor
      · rintro (rfl | ⟨hne, -⟩)
        · rfl
        · exact absurd hkey.symm hne
      · exact fun hsame => .inl hsame.symm
    · rw [if_neg hkey]
      constructor
      · rintro (rfl | ⟨-, hlast⟩)
        · exact absurd rfl hkey
        · exact hlast
      · exact fun hlast => .inr ⟨Ne.symm hkey, hlast⟩

/-- The walk for a key ends at the newest insertion for it. -/
theorem Holds.walk (hholds : Holds hash map log) (hcapacity : map.capacity ≠ 0) (key : κ) :
    ∃ slot, findSlot hash map.entries map.capacity key = some slot ∧
      Ends Entry.key map.capacity map.entries key (hash key) slot ∧
      map.entries slot = last log key := by
  have hwalk : ∃ slot, Ends Entry.key map.capacity map.entries key (hash key) slot :=
    exists_ends (hholds.exists_empty hcapacity)
  obtain ⟨slot, hends⟩ := hwalk
  obtain hzero | ⟨-, k, hpower⟩ := hholds.capacity
  · exact absurd hzero hcapacity
  refine ⟨slot, ?_, hends, ?_⟩
  · rw [hpower] at hends ⊢
    exact findSlot_of_ends hends
  · cases hlast : last log key with
    | none =>
        cases hentry : map.entries slot with
        | none => rfl
        | some entry =>
            obtain ⟨-, -, -, hstops, -⟩ := hends
            have hfound := (hholds.cells entry).mp ⟨slot, hentry⟩
            rw [hstops entry hentry, hlast] at hfound
            cases hfound
    | some entry =>
        have hkey := last_key hlast
        refine (hholds.probed.ends_iff hends entry hkey).mpr ((hholds.cells entry).mpr ?_)
        rw [hkey]
        exact hlast

theorem insert_spec (hholds : Holds hash map log) (call : Call κ ν) :
    ∃ result after, insert hash map call = some (result, after) ∧
      (result = true ↔ (requiredCapacity map ≤ map.capacity ∨ call.allocated = true) ∧
        Effective call log) ∧ Holds hash after (logged result call log) := by
  obtain ⟨reserved, grown, hreserve, hgrown, hcount, hreserved, hroom, -⟩ :=
    hholds.reserve call.allocated (requiredCapacity map)
  cases reserved with
  | false =>
      refine ⟨false, grown, ?_, ?_, hgrown⟩
      · rw [insert, hreserve]
        rfl
      · exact iff_of_false Bool.false_ne_true fun hboth =>
          Bool.false_ne_true (hreserved.mpr hboth.1)
  | true =>
      obtain ⟨hpositive, hrequired⟩ := hholds.required
      have hroom := hroom rfl
      obtain ⟨slot, hslot, hends, hentry⟩ := hgrown.walk (by omega) call.entry.key
      cases hlast : last log call.entry.key with
      | none =>
          rw [hlast] at hentry
          have hfresh := last_eq_none.mp hlast
          refine ⟨true, ⟨Function.update grown.entries slot (some call.entry), grown.capacity,
            grown.count + 1⟩, ?_, iff_of_true rfl ⟨hreserved.mp rfl, .inr hfresh⟩, ?_⟩
          · simp only [insert, hreserve, Option.bind_eq_bind, Option.bind_some, Bool.not_true,
              Bool.false_eq_true, if_false, hslot, hentry, Option.pure_def]
          · refine hgrown.put hends ?_ (by omega)
            have hnotMem : call.entry.key ∉ (log.map Entry.key).toFinset := by
              rw [List.mem_toFinset, List.mem_map]
              rintro ⟨entry, hmem, hkey⟩
              exact hfresh entry hmem hkey
            rw [List.map_cons, List.toFinset_cons, Finset.card_insert_of_notMem hnotMem,
              hgrown.count]
      | some old =>
          rw [hlast] at hentry
          have hkey := last_key hlast
          cases hreplace : call.replace with
          | false =>
              refine ⟨false, grown, ?_, ?_, hgrown⟩
              · simp only [insert, hreserve, Option.bind_eq_bind, Option.bind_some, Bool.not_true,
                  Bool.false_eq_true, if_false, hslot, hentry, Option.pure_def, hreplace,
                  Bool.not_false, if_true]
              · refine iff_of_false Bool.false_ne_true ?_
                rintro ⟨-, hreplaced | hfresh⟩
                · rw [hreplace] at hreplaced
                  cases hreplaced
                · exact hfresh old (last_mem hlast) hkey
          | true =>
              have hsame : { old with value := call.entry.value, index := call.entry.index } =
                  call.entry := by
                rw [hkey]
              refine ⟨true, ⟨Function.update grown.entries slot (some call.entry), grown.capacity,
                grown.count⟩, ?_, iff_of_true rfl ⟨hreserved.mp rfl, .inl hreplace⟩, ?_⟩
              · simp only [insert, hreserve, Option.bind_eq_bind, Option.bind_some, Bool.not_true,
                  Bool.false_eq_true, if_false, hslot, hentry, Option.pure_def, hreplace, hsame]
              · refine hgrown.put hends ?_ (by omega)
                have hmem : call.entry.key ∈ (log.map Entry.key).toFinset := by
                  rw [List.mem_toFinset, ← hkey]
                  exact List.mem_map_of_mem (last_mem hlast)
                rw [List.map_cons, List.toFinset_cons, Finset.insert_eq_of_mem hmem, hgrown.count]

theorem Reachable.holds (hreachable : Reachable hash map log) : Holds hash map log := by
  induction hreachable with
  | start =>
      refine ⟨.inl rfl, fun hne => absurd rfl hne, rfl, .empty .., fun entry => ?_⟩
      simp [empty, last]
  | @insert map after log call result hreachable hinsert ih =>
      obtain ⟨result', after', hinsert', -, hholds⟩ := insert_spec ih call
      rw [hinsert] at hinsert'
      obtain ⟨rfl, rfl⟩ := Prod.mk.inj (Option.some.inj hinsert')
      exact hholds

theorem lookup_spec (hholds : Holds hash map log) (key : κ) :
    lookupEntry hash map key = some (last log key) := by
  rw [lookupEntry]
  split
  next hcapacity =>
    rw [hholds.log_nil hcapacity]
    rfl
  next hcapacity =>
    obtain ⟨slot, hslot, -, hentry⟩ := hholds.walk hcapacity key
    rw [findSlot] at hslot
    rw [lookupFrom_eq, hslot, Option.map_some, hentry]

/-- After every sequence of insertions a lookup gives the newest effective one, the probe loops
end, each entry has one slot, and `count` is the number of keys. -/
theorem name_map_is_finite_map (hreachable : Reachable hash map log) :
    (map.capacity = 0 ∧ log = [] ∨ (∃ k, map.capacity = 2 ^ k) ∧
      ∃ index < map.capacity, map.entries index = none) ∧
    map.count = (log.map Entry.key).toFinset.card ∧
    (∀ entry, last log entry.key = some entry ↔
      ∃! index, index < map.capacity ∧ map.entries index = some entry) ∧
    (∀ key, lookupEntry hash map key = some (last log key)) ∧
    ∀ call, ∃ result after, insert hash map call = some (result, after) ∧
      (result = true ↔ (requiredCapacity map ≤ map.capacity ∨ call.allocated = true) ∧
        Effective call log) := by
  have hholds := hreachable.holds
  refine ⟨?_, hholds.count, fun entry => ?_, lookup_spec hholds, fun call => ?_⟩
  · by_cases hcapacity : map.capacity = 0
    · exact .inl ⟨hcapacity, hholds.log_nil hcapacity⟩
    · obtain hzero | ⟨-, hpower⟩ := hholds.capacity
      · exact absurd hzero hcapacity
      · exact .inr ⟨hpower, hholds.exists_empty hcapacity⟩
  · rw [← hholds.cells]
    constructor
    · rintro ⟨index, hentry⟩
      exact ⟨index, ⟨hholds.probed.inside index entry hentry, hentry⟩, fun other hother =>
        hholds.probed.distinct other index entry entry hother.2 hentry rfl⟩
    · rintro ⟨index, ⟨-, hentry⟩, -⟩
      exact ⟨index, hentry⟩
  · obtain ⟨result, after, hinsert, hresult, -⟩ := insert_spec hholds call
    exact ⟨result, after, hinsert, hresult⟩

/-! The finite maps that the checker works with. -/

/-- The table holds the map; the newest entry of a key is the one that counts. -/
def Represents {ν : Type} (hash : Name → Nat) (table : Map Name ν) (map : NameMap ν) : Prop :=
  ∃ log, Holds hash table log ∧ map.entries = log.map fun entry => (entry.key, entry.value)

theorem lookup_log {ν : Type} {map : NameMap ν} {log : List (Entry Name ν)}
    (hentries : map.entries = log.map fun entry => (entry.key, entry.value)) (key : Name) :
    map.lookup key = (last log key).map Entry.value := by
  rw [NameMap.lookup, hentries, List.find?_map, Option.map_map, last]
  congr 1

theorem Represents.lookup {ν : Type} {hash : Name → Nat} {table : Map Name ν} {map : NameMap ν}
    (hrepresents : Represents hash table map) (key : Name) :
    lookupValue hash table key = some (map.lookup key) := by
  obtain ⟨log, hholds, hentries⟩ := hrepresents
  rw [lookupValue, lookup_spec hholds, lookup_log hentries, Option.map_some]

theorem Represents.insert {ν : Type} {hash : Name → Nat} {table : Map Name ν} {map : NameMap ν}
    (hrepresents : Represents hash table map) (call : Call Name ν)
    (hallocated : call.allocated = true) :
    ∃ result after, insert hash table call = some (result, after) ∧
      Represents hash after (map.insert call.entry.key call.entry.value call.replace) := by
  obtain ⟨log, hholds, hentries⟩ := hrepresents
  obtain ⟨result, after, hinsert, hresult, hafter⟩ := insert_spec hholds call
  refine ⟨result, after, hinsert, logged result call log, hafter, ?_⟩
  have heffective : result = true ↔ call.replace = true ∨ last log call.entry.key = none := by
    rw [hresult, and_iff_right (Or.inr hallocated), Effective, last_eq_none]
  have hkept : (!call.replace && (map.lookup call.entry.key).isSome) = !result := by
    rw [lookup_log hentries, Option.isSome_map]
    revert heffective
    cases call.replace <;> cases last log call.entry.key <;> cases result <;> simp
  rw [NameMap.insert, hkept]
  cases result with
  | false => exact hentries
  | true =>
      show (call.entry.key, call.entry.value) :: map.entries = _
      rw [hentries]
      rfl

end

def insertAll (hash : κ → Nat) : List (Call κ ν) → Map κ ν × List (Entry κ ν) →
    Option (Map κ ν × List (Entry κ ν))
  | [], state => some state
  | call :: rest, (map, log) => do
      let (result, after) ← insert hash map call
      insertAll hash rest (after, logged result call log)

theorem Reachable.insertAll {hash : κ → Nat} {calls : List (Call κ ν)} {map after : Map κ ν}
    {log log' : List (Entry κ ν)} (hreachable : Reachable hash map log)
    (hrun : NameTable.insertAll hash calls (map, log) = some (after, log')) :
    Reachable hash after log' := by
  induction calls generalizing map log with
  | nil =>
      cases hrun
      exact hreachable
  | cons call rest ih =>
      simp only [NameTable.insertAll, Option.bind_eq_bind, Option.bind_eq_some_iff] at hrun
      obtain ⟨⟨result, middle⟩, hinsert, hrest⟩ := hrun
      exact ih (.insert hreachable hinsert) hrest

/-- Twelve keys of one slot, the last of which makes the table grow; then one of them is replaced
and another one is not. -/
def collidingCalls : List (Call Nat Nat) :=
  (List.range 12).map (fun i => ⟨⟨16 * i, i, i⟩, false, true⟩) ++
    [⟨⟨48, 100, 0⟩, true, true⟩, ⟨⟨64, 200, 0⟩, false, true⟩]

theorem name_map_is_finite_map_of_collisions :
    ∃ map log, insertAll (fun key => key) collidingCalls (empty, []) = some (map, log) ∧
      map.capacity = 32 ∧ map.count = 12 ∧
      lookupEntry (fun key => key) map 48 = some (some ⟨48, 100, 0⟩) ∧
      lookupEntry (fun key => key) map 64 = some (some ⟨64, 4, 4⟩) ∧
      lookupEntry (fun key => key) map 176 = some (some ⟨176, 11, 11⟩) ∧
      lookupEntry (fun key => key) map 192 = some none := by
  have hrun : (insertAll (fun key => key) collidingCalls (empty, [])).map
      (fun state => (state.1.capacity, state.2)) = some (32, ⟨48, 100, 0⟩ ::
        ((List.range 12).map fun i => ⟨16 * i, i, i⟩).reverse) := by decide +kernel
  obtain ⟨⟨map, log⟩, hinserted, heq⟩ := Option.map_eq_some_iff.mp hrun
  obtain ⟨hcapacity, hlog⟩ := Prod.mk.inj heq
  dsimp only at hcapacity hlog
  obtain ⟨-, hcount, -, hlookup, -⟩ := name_map_is_finite_map (Reachable.start.insertAll hinserted)
  subst hlog
  exact ⟨map, _, hinserted, hcapacity, hcount.trans (by decide), hlookup 48, hlookup 64,
    hlookup 176, hlookup 192⟩

/-- Before the first table there is no slot. -/
theorem no_table_capacity :
    ¬ ∀ (map : Map Nat Nat) (log : List (Entry Nat Nat)), Reachable (fun key => key) map log →
      ∃ k, map.capacity = 2 ^ k := by
  intro hpower
  obtain ⟨k, hk⟩ := hpower empty [] .start
  exact absurd hk.symm (pow_ne_zero k (by decide))

end NameTable

end Cnegative
