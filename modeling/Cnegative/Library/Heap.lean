import Mathlib.Tactic

namespace Library

/-! A heap of blocks. An access to a block that is not live, and a second `free`, have no
result. -/

structure HeapBlock (α : Type) where
  size : Nat
  content : α

/-- The live blocks by address, how many blocks were ever given, and the addresses that were
freed, the oldest first. -/
structure Heap (α : Type) where
  block : Nat → Option (HeapBlock α)
  made : Nat
  freed : List Nat

namespace Heap

variable {α : Type} {heap after : Heap α} {address : Nat} {content : α}

/-- The heap behind `malloc`, by the answer of the allocator. -/
def give (heap : Heap α) (size : Nat) (content : α) : Option Nat → Heap α
  | none => heap
  | some address =>
      { heap with
        block := Function.update heap.block address (some ⟨size, content⟩)
        made := heap.made + 1 }

def free (heap : Heap α) (address : Nat) : Option (Heap α) :=
  (heap.block address).map fun _ =>
    { heap with
      block := Function.update heap.block address none
      freed := heap.freed ++ [address] }

def load (heap : Heap α) (address : Nat) : Option α :=
  (heap.block address).map HeapBlock.content

def store (heap : Heap α) (address : Nat) (content : α) : Option (Heap α) :=
  (heap.block address).map fun block =>
    { heap with block := Function.update heap.block address (some ⟨block.size, content⟩) }

def Disjoint (address size address' size' : Nat) : Prop :=
  address + size ≤ address' ∨ address' + size' ≤ address

/-- What an allocator may answer: a range that meets no live block. -/
def Given (heap : Heap α) (size : Nat) (answer : Option Nat) : Prop :=
  ∀ address, answer = some address → heap.block address = none ∧
    ∀ other block, heap.block other = some block → Disjoint address size other block.size

def Apart (heap : Heap α) : Prop :=
  ∀ address address' block block', heap.block address = some block →
    heap.block address' = some block' → address ≠ address' →
      Disjoint address block.size address' block'.size

@[simp] theorem give_none (heap : Heap α) (size : Nat) (content : α) :
    heap.give size content none = heap := rfl

theorem give_same (heap : Heap α) (size : Nat) (content : α) (address : Nat) :
    (heap.give size content (some address)).block address = some ⟨size, content⟩ :=
  Function.update_self ..

theorem give_other (heap : Heap α) (size : Nat) (content : α) {other : Nat}
    (hne : other ≠ address) :
    (heap.give size content (some address)).block other = heap.block other :=
  Function.update_of_ne hne ..

theorem give_made (heap : Heap α) (size : Nat) (content : α) (answer : Option Nat) :
    heap.made ≤ (heap.give size content answer).made := by
  cases answer with
  | none => exact Nat.le_refl _
  | some address => exact Nat.le_succ _

theorem give_freed (heap : Heap α) (size : Nat) (content : α) (answer : Option Nat) :
    (heap.give size content answer).freed = heap.freed := by
  cases answer <;> rfl

theorem free_spec {block : HeapBlock α} (hlive : heap.block address = some block) :
    ∃ after, heap.free address = some after ∧
      after.block = Function.update heap.block address none ∧ after.made = heap.made ∧
        after.freed = heap.freed ++ [address] := by
  rw [free, hlive]
  exact ⟨_, rfl, rfl, rfl, rfl⟩

/-- A block that was just given and is freed again leaves nothing behind. -/
theorem give_free (heap : Heap α) (size : Nat) (content : α)
    (hfresh : heap.block address = none) :
    ∃ after, (heap.give size content (some address)).free address = some after ∧
      after.block = heap.block ∧ after.made = heap.made + 1 := by
  obtain ⟨after, hfree, hblock, hmade, -⟩ := free_spec (give_same heap size content address)
  refine ⟨after, hfree, ?_, hmade⟩
  funext other
  rw [hblock]
  by_cases hother : other = address
  · rw [hother, hfresh, Function.update_self]
  · rw [Function.update_of_ne hother, give_other heap size content hother]

theorem store_spec {block : HeapBlock α} (hlive : heap.block address = some block)
    (content : α) :
    ∃ after, heap.store address content = some after ∧
      after.block = Function.update heap.block address (some ⟨block.size, content⟩) ∧
        after.made = heap.made ∧ after.freed = heap.freed := by
  rw [store, hlive]
  exact ⟨_, rfl, rfl, rfl, rfl⟩

/-! The live blocks stay apart. -/

theorem Disjoint.symm {size address' size' : Nat} (hdisjoint : Disjoint address size address' size') :
    Disjoint address' size' address size := Or.symm hdisjoint

theorem Apart.give (hapart : heap.Apart) {size : Nat} {answer : Option Nat}
    (hgiven : heap.Given size answer) (content : α) : (heap.give size content answer).Apart := by
  cases answer with
  | none => exact hapart
  | some new =>
      obtain ⟨-, hnew⟩ := hgiven new rfl
      intro first second block block' hfirst hsecond hne
      by_cases hfirstNew : first = new
      · subst hfirstNew
        rw [give_same] at hfirst
        rw [give_other _ _ _ hne.symm] at hsecond
        cases hfirst
        exact hnew second block' hsecond
      · rw [give_other _ _ _ hfirstNew] at hfirst
        by_cases hsecondNew : second = new
        · subst hsecondNew
          rw [give_same] at hsecond
          cases hsecond
          exact (hnew first block hfirst).symm
        · rw [give_other _ _ _ hsecondNew] at hsecond
          exact hapart first second block block' hfirst hsecond hne

/-- A heap whose live blocks are live with the same size in another one. -/
theorem Apart.of_sizes (hapart : heap.Apart)
    (hsizes : ∀ address block, after.block address = some block →
      ∃ old, heap.block address = some old ∧ old.size = block.size) : after.Apart := by
  intro first second block block' hfirst hsecond hne
  obtain ⟨old, hold, hsize⟩ := hsizes first block hfirst
  obtain ⟨old', hold', hsize'⟩ := hsizes second block' hsecond
  have hdisjoint := hapart first second old old' hold hold' hne
  rwa [hsize, hsize'] at hdisjoint

theorem Apart.store (hapart : heap.Apart) (hstore : heap.store address content = some after) :
    after.Apart := by
  obtain ⟨block, hlive, rfl⟩ := Option.map_eq_some_iff.mp hstore
  refine hapart.of_sizes fun other block' hother => ?_
  dsimp only at hother
  by_cases hsame : other = address
  · rw [hsame] at hother ⊢
    rw [Function.update_self] at hother
    cases hother
    exact ⟨block, hlive, rfl⟩
  · rw [Function.update_of_ne hsame] at hother
    exact ⟨block', hother, rfl⟩

theorem Apart.of_some (hapart : heap.Apart)
    (hsome : ∀ address block, after.block address = some block →
      heap.block address = some block) : after.Apart :=
  hapart.of_sizes fun address block hblock => ⟨block, hsome address block hblock, rfl⟩

section

variable {sizes : List (Nat × Nat)}

def Among (heap : Heap α) (sizes : List (Nat × Nat)) : Prop :=
  ∀ address block, heap.block address = some block → (address, block.size) ∈ sizes

theorem Among.given (hamong : heap.Among sizes) {size : Nat}
    (hapart : ∀ range ∈ sizes, range.1 ≠ address ∧ Disjoint address size range.1 range.2) :
    heap.Given size (some address) := by
  intro new hnew
  cases hnew
  refine ⟨?_, fun other block hblock => (hapart _ (hamong other block hblock)).2⟩
  cases hblock : heap.block address with
  | none => rfl
  | some block => exact absurd rfl (hapart _ (hamong address block hblock)).1

theorem Among.give (hamong : heap.Among sizes) (size : Nat) (content : α) :
    (heap.give size content (some address)).Among ((address, size) :: sizes) := by
  intro other block hblock
  by_cases hother : other = address
  · rw [hother, give_same] at hblock
    cases hblock
    rw [hother]
    exact List.mem_cons_self
  · rw [give_other _ _ _ hother] at hblock
    exact List.mem_cons_of_mem _ (hamong other block hblock)

theorem Among.store (hamong : heap.Among sizes) (hstore : heap.store address content = some after) :
    after.Among sizes := by
  obtain ⟨block, hlive, rfl⟩ := Option.map_eq_some_iff.mp hstore
  intro other block' hother
  dsimp only at hother
  by_cases hsame : other = address
  · rw [hsame, Function.update_self] at hother
    cases hother
    rw [hsame]
    exact hamong address block hlive
  · rw [Function.update_of_ne hsame] at hother
    exact hamong other block' hother

theorem Among.free (hamong : heap.Among sizes) (hfree : heap.free address = some after) :
    after.Among sizes := by
  obtain ⟨block, hlive, rfl⟩ := Option.map_eq_some_iff.mp hfree
  intro other block' hother
  dsimp only at hother
  by_cases hsame : other = address
  · rw [hsame, Function.update_self] at hother
    cases hother
  · rw [Function.update_of_ne hsame] at hother
    exact hamong other block' hother

end

end Heap

end Library
