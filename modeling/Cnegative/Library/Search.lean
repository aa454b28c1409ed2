import Mathlib.Data.List.Basic
import Mathlib.Data.List.Nodup
import Mathlib.Data.List.Induction

namespace Library

/-! First and last match of a linear search, and when they are the same. -/

variable {α κ : Type} [DecidableEq κ]

/-- With distinct keys a search by key finds the same entry from either end. -/
theorem find?_reverse_of_nodup {key : α → κ} {entries : List α}
    (hnodup : (entries.map key).Nodup) (accept : α → Bool) (target : κ) :
    entries.reverse.find? (fun entry => accept entry && key entry == target) =
      entries.find? (fun entry => accept entry && key entry == target) := by
  induction entries with
  | nil => rfl
  | cons entry rest ih =>
      simp only [List.map_cons, List.nodup_cons] at hnodup
      rw [List.reverse_cons, List.find?_append, ih hnodup.2]
      cases hentry : accept entry && key entry == target with
      | false => simp [hentry]
      | true =>
          have hkey : key entry = target := by
            simpa using (Bool.and_eq_true_iff.mp hentry).2
          have hrest : rest.find? (fun other => accept other && key other == target) = none := by
            rw [List.find?_eq_none]
            intro other hother hmatch
            have hother' : key other = target := by
              simpa using (Bool.and_eq_true_iff.mp hmatch).2
            exact hnodup.1 (List.mem_map.mpr ⟨other, hother, hother'.trans hkey.symm⟩)
          simp [hentry, hrest]

/-- `index` is where the first element accepted by `accept` stands. -/
def IsFirst (accept : α → Bool) (entries : List α) (index : Nat) : Prop :=
  (∃ entry, entries[index]? = some entry ∧ accept entry = true) ∧
    ∀ earlier < index, ∀ entry, entries[earlier]? = some entry → accept entry = false

/-- `index` is where the last element accepted by `accept` stands. -/
def IsLast (accept : α → Bool) (entries : List α) (index : Nat) : Prop :=
  (∃ entry, entries[index]? = some entry ∧ accept entry = true) ∧
    ∀ later, index < later → ∀ entry, entries[later]? = some entry → accept entry = false

theorem IsFirst.le {accept : α → Bool} {entries : List α} {index other : Nat} {entry : α}
    (hfirst : IsFirst accept entries index) (hentry : entries[other]? = some entry)
    (haccept : accept entry = true) : index ≤ other := by
  by_contra hlt
  have hrefused := hfirst.2 other (by omega) entry hentry
  rw [haccept] at hrefused
  cases hrefused

theorem IsLast.le {accept : α → Bool} {entries : List α} {index other : Nat} {entry : α}
    (hlast : IsLast accept entries index) (hentry : entries[other]? = some entry)
    (haccept : accept entry = true) : other ≤ index := by
  by_contra hlt
  have hrefused := hlast.2 other (by omega) entry hentry
  rw [haccept] at hrefused
  cases hrefused

theorem isFirst_of_findIdx? {accept : α → Bool} {entries : List α} {index : Nat}
    (hfind : entries.findIdx? accept = some index) : IsFirst accept entries index := by
  rw [List.findIdx?_eq_some_iff_getElem] at hfind
  obtain ⟨hlt, haccept, hearlier⟩ := hfind
  refine ⟨⟨entries[index], by simp [hlt], haccept⟩, ?_⟩
  intro earlier hlt' entry hentry
  obtain ⟨hbound, rfl⟩ := List.getElem?_eq_some_iff.mp hentry
  simpa using hearlier earlier hlt'

/-- The search from the end over the entries paired with their positions. -/
def findLastIdx? (accept : α → Bool) (entries : List α) : Option Nat :=
  (entries.zipIdx.reverse.find? (fun entry => accept entry.1)).map Prod.snd

theorem findLastIdx?_append_singleton (accept : α → Bool) (entries : List α) (entry : α) :
    findLastIdx? accept (entries ++ [entry]) =
      if accept entry then some entries.length else findLastIdx? accept entries := by
  simp only [findLastIdx?, List.zipIdx_append, List.reverse_append]
  cases haccept : accept entry <;> simp [haccept]

theorem isLast_of_findLastIdx? {accept : α → Bool} {entries : List α} {index : Nat}
    (hfind : findLastIdx? accept entries = some index) : IsLast accept entries index := by
  induction entries using List.reverseRecOn generalizing index with
  | nil => simp [findLastIdx?] at hfind
  | append_singleton rest entry ih =>
      rw [findLastIdx?_append_singleton] at hfind
      cases haccept : accept entry with
      | true =>
          simp only [haccept, if_true, Option.some.injEq] at hfind
          subst hfind
          refine ⟨⟨entry, by simp, haccept⟩, ?_⟩
          intro later hlater other hother
          have hbound := (List.getElem?_eq_some_iff.mp hother).1
          simp only [List.length_append, List.length_singleton] at hbound
          omega
      | false =>
          simp only [haccept, Bool.false_eq_true, if_false] at hfind
          obtain ⟨⟨found, hfound, hfoundAccept⟩, hlater⟩ := ih hfind
          have hindex := (List.getElem?_eq_some_iff.mp hfound).1
          refine ⟨⟨found, by simpa [List.getElem?_append_left hindex] using hfound,
            hfoundAccept⟩, ?_⟩
          intro later hgt other hother
          rcases Nat.lt_or_ge later rest.length with hlt | hge
          · rw [List.getElem?_append_left hlt] at hother
            exact hlater later hgt other hother
          · rw [List.getElem?_append_right hge] at hother
            have hzero : later - rest.length = 0 := by
              have hbound := (List.getElem?_eq_some_iff.mp hother).1
              simpa using hbound
            simp only [hzero, List.getElem?_cons_zero, Option.some.injEq] at hother
            exact hother ▸ haccept

theorem findLastIdx?_eq_none_iff (accept : α → Bool) (entries : List α) :
    findLastIdx? accept entries = none ↔ entries.findIdx? accept = none := by
  induction entries using List.reverseRecOn with
  | nil => simp [findLastIdx?]
  | append_singleton rest entry ih =>
      rw [findLastIdx?_append_singleton, List.findIdx?_append]
      cases haccept : accept entry with
      | true => simp [haccept]
      | false => simp [haccept, ih]

end Library
