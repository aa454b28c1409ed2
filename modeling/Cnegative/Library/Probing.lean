import Mathlib.Tactic

namespace Library

/-! Open addressing with linear probing: a cell stands where the walk from the home of its key
first meets no other cell. -/

variable {α κ : Type}

/-- The walk from `start` may end here: the slot is empty, or the cell is the one looked for. -/
def Stops (key : α → κ) (table : Nat → Option α) (wanted : κ) (index : Nat) : Prop :=
  ∀ cell, table index = some cell → key cell = wanted

/-- The first slot of the walk where it may end. -/
def Ends (key : α → κ) (capacity : Nat) (table : Nat → Option α) (wanted : κ)
    (start index : Nat) : Prop :=
  ∃ distance < capacity, index = (start + distance) % capacity ∧ Stops key table wanted index ∧
    ∀ before < distance, ¬ Stops key table wanted ((start + before) % capacity)

/-- No cell outside the table, none behind an empty slot of its walk, and none twice. -/
structure Probed (key : α → κ) (home : κ → Nat) (capacity : Nat) (table : Nat → Option α) :
    Prop where
  inside : ∀ index cell, table index = some cell → index < capacity
  path : ∀ index cell, table index = some cell → ∃ distance < capacity,
    index = (home (key cell) + distance) % capacity ∧
      ∀ before < distance, table ((home (key cell) + before) % capacity) ≠ none
  distinct : ∀ index index' cell cell', table index = some cell → table index' = some cell' →
    key cell = key cell' → index = index'

variable {key : α → κ} {home : κ → Nat} {capacity : Nat} {table : Nat → Option α}
  {wanted : κ} {start index : Nat}

theorem Stops.of_none (hnone : table index = none) : Stops key table wanted index := by
  intro cell hcell
  rw [hnone] at hcell
  cases hcell

/-- A walk ends before it comes back to its start. -/
theorem exists_ends (hempty : ∃ index < capacity, table index = none) :
    ∃ index, Ends key capacity table wanted start index := by
  classical
  obtain ⟨empty, hbound, hnone⟩ := hempty
  have hstops : ∃ distance, Stops key table wanted ((start + distance) % capacity) := by
    refine ⟨empty + (capacity - start % capacity), .of_none ?_⟩
    have hreached : (start + (empty + (capacity - start % capacity))) % capacity = empty := by
      have hle : start % capacity ≤ capacity := (Nat.mod_lt _ (by omega)).le
      have hsum : start + (empty + (capacity - start % capacity)) =
          empty + capacity * (start / capacity + 1) := by
        have hdiv := Nat.div_add_mod start capacity
        rw [Nat.mul_add, Nat.mul_one]
        omega
      rw [hsum, Nat.add_mul_mod_self_left, Nat.mod_eq_of_lt hbound]
    rw [hreached, hnone]
  refine ⟨_, Nat.find hstops, ?_, rfl, Nat.find_spec hstops,
    fun before hbefore => Nat.find_min hstops hbefore⟩
  -- a distance from `capacity` on leads to a slot that was met before
  by_contra hlarge
  have hback : Stops key table wanted
      ((start + (Nat.find hstops - capacity)) % capacity) := by
    have hspec := Nat.find_spec hstops
    have hsum : start + Nat.find hstops =
        start + (Nat.find hstops - capacity) + capacity := by omega
    rwa [hsum, Nat.add_mod_right] at hspec
  exact Nat.find_min hstops (by omega) hback

theorem Ends.lt (hends : Ends key capacity table wanted start index) : index < capacity := by
  obtain ⟨distance, hdistance, rfl, -⟩ := hends
  exact Nat.mod_lt _ (by omega)

theorem Ends.unique {index' : Nat} (hends : Ends key capacity table wanted start index)
    (hends' : Ends key capacity table wanted start index') : index = index' := by
  obtain ⟨distance, -, rfl, hstops, hbefore⟩ := hends
  obtain ⟨distance', -, rfl, hstops', hbefore'⟩ := hends'
  obtain hlt | rfl | hgt := Nat.lt_trichotomy distance distance'
  · exact absurd hstops (hbefore' distance hlt)
  · rfl
  · exact absurd hstops' (hbefore distance' hgt)

namespace Probed

theorem empty (key : α → κ) (home : κ → Nat) (capacity : Nat) :
    Probed key home capacity fun _ => none where
  inside _ _ hcell := by cases hcell
  path _ _ hcell := by cases hcell
  distinct _ _ _ _ hcell := by cases hcell

theorem ends_of_mem (hprobed : Probed key home capacity table) {cell : α}
    (hcell : table index = some cell) :
    Ends key capacity table (key cell) (home (key cell)) index := by
  obtain ⟨distance, hdistance, hindex, hpath⟩ := hprobed.path index cell hcell
  have hown : Stops key table (key cell) index := by
    intro other hother
    rw [hcell] at hother
    rw [Option.some.inj hother]
  -- a slot before the cell holds another key, or the first one that does not is the cell's
  classical
  by_cases hearlier : ∃ before < distance,
      Stops key table (key cell) ((home (key cell) + before) % capacity)
  · obtain ⟨before, hbefore, hstops⟩ := hearlier
    obtain ⟨other, hother⟩ := Option.ne_none_iff_exists'.mp (hpath before hbefore)
    have hsame := hprobed.distinct _ _ other cell hother hcell (hstops other hother)
    refine absurd hsame ?_
    rw [hindex]
    intro hmod
    have hmodEq : before % capacity = distance % capacity :=
      Nat.ModEq.add_left_cancel' (home (key cell)) hmod
    rw [Nat.mod_eq_of_lt (hbefore.trans hdistance), Nat.mod_eq_of_lt hdistance] at hmodEq
    omega
  · exact ⟨distance, hdistance, hindex, hown, fun before hbefore hstops =>
      hearlier ⟨before, hbefore, hstops⟩⟩

/-- What the end of the walk says about the key. -/
theorem ends_iff (hprobed : Probed key home capacity table)
    (hends : Ends key capacity table wanted (home wanted) index) (cell : α)
    (hkey : key cell = wanted) :
    table index = some cell ↔ ∃ other, table other = some cell := by
  constructor
  · exact fun hcell => ⟨index, hcell⟩
  · rintro ⟨other, hother⟩
    have hends' := hprobed.ends_of_mem hother
    rw [hkey] at hends'
    rw [hends.unique hends']
    exact hother

/-- Writing a cell where the walk for its key ends. -/
theorem put (hprobed : Probed key home capacity table) {cell : α}
    (hends : Ends key capacity table (key cell) (home (key cell)) index) :
    Probed key home capacity (Function.update table index (some cell)) where
  inside other found hfound := by
    by_cases hother : other = index
    · rw [hother]
      exact hends.lt
    · rw [Function.update_of_ne hother] at hfound
      exact hprobed.inside other found hfound
  path other found hfound := by
    have hkept : ∀ slot, table slot ≠ none →
        Function.update table index (some cell) slot ≠ none := by
      intro slot hslot
      by_cases hsame : slot = index
      · rw [hsame, Function.update_self]
        exact Option.some_ne_none cell
      · rwa [Function.update_of_ne hsame]
    by_cases hother : other = index
    · subst hother
      rw [Function.update_self] at hfound
      obtain rfl := Option.some.inj hfound
      obtain ⟨distance, hdistance, hindex, -, hbefore⟩ := hends
      refine ⟨distance, hdistance, hindex, fun before hlt => hkept _ fun hnone => ?_⟩
      exact hbefore before hlt (.of_none hnone)
    · rw [Function.update_of_ne hother] at hfound
      obtain ⟨distance, hdistance, hindex, hpath⟩ := hprobed.path other found hfound
      exact ⟨distance, hdistance, hindex, fun before hlt => hkept _ (hpath before hlt)⟩
  distinct first second found found' hfirst hsecond hkeys := by
    -- a cell elsewhere with the key of the new one would have ended the walk there
    have hno : ∀ other found, other ≠ index → table other = some found →
        key found ≠ key cell := by
      intro other found hne hfound hkey
      have hends' := hprobed.ends_of_mem hfound
      rw [hkey] at hends'
      exact hne (hends'.unique hends)
    by_cases hfirstSame : first = index
    · by_cases hsecondSame : second = index
      · rw [hfirstSame, hsecondSame]
      · rw [hfirstSame, Function.update_self] at hfirst
        rw [Function.update_of_ne hsecondSame] at hsecond
        obtain rfl := Option.some.inj hfirst
        exact absurd hkeys.symm (hno second found' hsecondSame hsecond)
    · rw [Function.update_of_ne hfirstSame] at hfirst
      by_cases hsecondSame : second = index
      · rw [hsecondSame, Function.update_self] at hsecond
        obtain rfl := Option.some.inj hsecond
        exact absurd hkeys (hno first found hfirstSame hfirst)
      · rw [Function.update_of_ne hsecondSame] at hsecond
        exact hprobed.distinct first second found found' hfirst hsecond hkeys

/-- The cells afterwards: the new one, and those with another key. -/
theorem put_cells (hprobed : Probed key home capacity table) {cell : α}
    (hends : Ends key capacity table (key cell) (home (key cell)) index) (found : α) :
    (∃ other, Function.update table index (some cell) other = some found) ↔
      found = cell ∨ key found ≠ key cell ∧ ∃ other, table other = some found := by
  constructor
  · rintro ⟨other, hother⟩
    by_cases hsame : other = index
    · rw [hsame, Function.update_self] at hother
      exact Or.inl (Option.some.inj hother).symm
    · rw [Function.update_of_ne hsame] at hother
      refine Or.inr ⟨fun hkey => hsame ?_, other, hother⟩
      have hends' := hprobed.ends_of_mem hother
      rw [hkey] at hends'
      exact hends'.unique hends
  · rintro (rfl | ⟨hkey, other, hother⟩)
    · exact ⟨index, Function.update_self ..⟩
    · refine ⟨other, ?_⟩
      rw [Function.update_of_ne, hother]
      rintro rfl
      obtain ⟨-, -, -, hstops, -⟩ := hends
      exact hkey (hstops found hother)

theorem exists_empty (hprobed : Probed key home capacity table) (keys : Finset κ)
    (hkeys : ∀ index cell, table index = some cell → key cell ∈ keys)
    (hcard : keys.card < capacity) : ∃ index < capacity, table index = none := by
  by_contra hfull
  have hcell : ∀ index ∈ Finset.range capacity, ∃ cell, table index = some cell := by
    intro index hindex
    refine Option.ne_none_iff_exists'.mp fun hnone => hfull ⟨index, ?_, hnone⟩
    exact Finset.mem_range.mp hindex
  have hle := Finset.card_le_card_of_injOn (s := Finset.range capacity)
    (t := keys.map Function.Embedding.some) (fun index => (table index).map key)
    (fun index hindex => by
      obtain ⟨cell, hcell⟩ := hcell index hindex
      dsimp only
      rw [hcell]
      exact Finset.mem_map_of_mem _ (hkeys index cell hcell))
    fun first hfirst second hsecond hsame => by
      obtain ⟨cell, hcell'⟩ := hcell first hfirst
      obtain ⟨other, hother⟩ := hcell second hsecond
      dsimp only at hsame
      rw [hcell', hother] at hsame
      exact hprobed.distinct first second cell other hcell' hother (Option.some.inj hsame)
  rw [Finset.card_range, Finset.card_map] at hle
  omega

end Probed

end Library
