import Cnegative.Library.Linked

namespace Library

variable {α : Type} [DecidableEq α]

/-! Chained hashing: every cell stands once in the chain of its own bucket. -/

def Hashed (index : α → Nat) (buckets : Nat → Option α) (link : α → Option α)
    (cells : List α) : Prop :=
  ∀ bucket, ∃ chain, Chained link (buckets bucket) chain none ∧ chain.Nodup ∧
    ∀ cell, cell ∈ chain ↔ cell ∈ cells ∧ index cell = bucket

namespace Hashed

variable {index : α → Nat} {buckets : Nat → Option α} {link : α → Option α} {cells : List α}

omit [DecidableEq α] in
theorem nil : Hashed index (fun _ => none) link [] :=
  fun _ => ⟨[], rfl, .nil, by simp⟩

omit [DecidableEq α] in
theorem of_mem_iff {others : List α} (hsame : ∀ cell, cell ∈ others ↔ cell ∈ cells)
    (hhashed : Hashed index buckets link cells) : Hashed index buckets link others := by
  intro bucket
  obtain ⟨chain, hchain, hnodup, hmem⟩ := hhashed bucket
  exact ⟨chain, hchain, hnodup, fun cell => by rw [hmem, hsame]⟩

omit [DecidableEq α] in
/-- The fields of other cells do not matter. -/
theorem frame {index' : α → Nat} {link' : α → Option α}
    (hindex : ∀ cell ∈ cells, index' cell = index cell)
    (hlink : ∀ cell ∈ cells, link' cell = link cell)
    (hhashed : Hashed index buckets link cells) : Hashed index' buckets link' cells := by
  intro bucket
  obtain ⟨chain, hchain, hnodup, hmem⟩ := hhashed bucket
  refine ⟨chain, hchain.frame fun cell hcell => hlink cell ((hmem cell).mp hcell).1, hnodup,
    fun cell => ?_⟩
  rw [hmem]
  constructor
  · exact fun hboth => ⟨hboth.1, (hindex cell hboth.1).trans hboth.2⟩
  · exact fun hboth => ⟨hboth.1, (hindex cell hboth.1).symm.trans hboth.2⟩

theorem insert {cell : α} (hfresh : cell ∉ cells) (hhashed : Hashed index buckets link cells) :
    Hashed index (setField buckets (index cell) (some cell))
      (setField link cell (buckets (index cell))) (cell :: cells) := by
  intro bucket
  obtain ⟨chain, hchain, hnodup, hmem⟩ := hhashed bucket
  have hcell : cell ∉ chain := fun hcell => hfresh ((hmem cell).mp hcell).1
  cases Decidable.em (bucket = index cell) with
  | inl hown =>
      subst hown
      refine ⟨cell :: chain, ⟨setField_same _ _ _, ?_⟩, List.nodup_cons.mpr ⟨hcell, hnodup⟩,
        fun other => ?_⟩
      · rw [setField_same]
        exact hchain.setField hcell _
      · rw [List.mem_cons, List.mem_cons, hmem]
        constructor
        · rintro (rfl | ⟨hother, hindex⟩)
          · exact ⟨Or.inl rfl, rfl⟩
          · exact ⟨Or.inr hother, hindex⟩
        · rintro ⟨rfl | hother, hindex⟩
          · exact Or.inl rfl
          · exact Or.inr ⟨hother, hindex⟩
  | inr hother =>
      refine ⟨chain, ?_, hnodup, fun other => ?_⟩
      · rw [setField_other hother]
        exact hchain.setField hcell _
      · rw [hmem, List.mem_cons]
        constructor
        · exact fun hboth => ⟨Or.inr hboth.1, hboth.2⟩
        · rintro ⟨rfl | hcells, hindex⟩
          · exact absurd hindex.symm hother
          · exact ⟨hcells, hindex⟩

/-- What unlinking a cell writes, for the cells before it in the chain: to the bucket, or to
the cell before. -/
def unlinked (buckets : Nat → Option α) (link : α → Option α) (bucket : Nat) (front : List α)
    (cell : α) : (Nat → Option α) × (α → Option α) :=
  match front.getLast? with
  | none => (setField buckets bucket (link cell), setField link cell none)
  | some last => (buckets, setField (setField link last (link cell)) cell none)

theorem remove {cell : α} {front back : List α}
    (hhashed : Hashed index buckets link cells)
    (hown : Chained link (buckets (index cell)) (front ++ cell :: back) none)
    (hnodup : (front ++ cell :: back).Nodup)
    (hmem : ∀ other, other ∈ front ++ cell :: back ↔ other ∈ cells ∧ index other = index cell)
    {rest : List α} (hrest : ∀ other, other ∈ rest ↔ other ∈ cells ∧ other ≠ cell) :
    Hashed index (unlinked buckets link (index cell) front cell).1
      (unlinked buckets link (index cell) front cell).2 rest := by
  have hfresh : cell ∉ front ++ back := by
    have hmiddle := List.nodup_middle.mp hnodup
    exact (List.nodup_cons.mp hmiddle).1
  have hshort : (front ++ back).Nodup := (List.nodup_cons.mp (List.nodup_middle.mp hnodup)).2
  intro bucket
  cases Decidable.em (bucket = index cell) with
  | inl hbucket =>
      subst hbucket
      refine ⟨front ++ back, ?_, hshort, fun other => ?_⟩
      · obtain ⟨middle, hfront, hmiddle, hback⟩ := Chained.append.mp hown
        cases front using List.reverseRecOn with
        | nil =>
            simp only [unlinked, List.getLast?_nil, setField_same, List.nil_append] at hfresh ⊢
            exact hback.setField hfresh none
        | append_singleton others last =>
            simp only [unlinked, List.getLast?_concat]
            have hlast : last ∉ others := by
              intro hlast
              have hdisjoint := List.nodup_append.mp (List.nodup_append.mp hshort).1
              exact hdisjoint.2.2 last hlast last (List.mem_singleton_self _) rfl
            have hbackLast : last ∉ back := by
              intro hlast
              have hdisjoint := List.nodup_append.mp hshort
              exact hdisjoint.2.2 last (by simp) last hlast rfl
            refine Chained.setField hfresh none (Chained.append.mpr ⟨link cell, ?_, ?_⟩)
            · exact hfront.retarget hlast (link cell)
            · exact hback.setField hbackLast _
      · rw [hrest]
        have hother := hmem other
        simp only [List.mem_append, List.mem_cons] at hother hfresh ⊢
        constructor
        · intro hmember
          have hboth := hother.mp (by tauto)
          exact ⟨⟨hboth.1, fun heq => hfresh (heq ▸ hmember)⟩, hboth.2⟩
        · rintro ⟨⟨hcells, hne⟩, hindex⟩
          have hmember := hother.mpr ⟨hcells, hindex⟩
          tauto
  | inr hbucket =>
      obtain ⟨chain, hchain, hchainNodup, hchainMem⟩ := hhashed bucket
      have hapart : ∀ other ∈ front ++ cell :: back, other ∉ chain := fun other hother hin =>
        hbucket (((hchainMem other).mp hin).2.symm.trans ((hmem other).mp hother).2)
      refine ⟨chain, ?_, hchainNodup, fun other => ?_⟩
      · cases front using List.reverseRecOn with
        | nil =>
            simp only [unlinked, List.getLast?_nil, setField_other hbucket]
            exact hchain.setField (hapart cell (by simp)) none
        | append_singleton others last =>
            simp only [unlinked, List.getLast?_concat]
            exact (hchain.setField (hapart last (by simp)) _).setField (hapart cell (by simp)) none
      · rw [hchainMem, hrest]
        constructor
        · exact fun hboth => ⟨⟨hboth.1, fun heq => hbucket (heq ▸ hboth.2.symm)⟩, hboth.2⟩
        · exact fun hboth => ⟨hboth.1.1, hboth.2⟩

end Hashed

end Library
