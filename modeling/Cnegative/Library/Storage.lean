import Mathlib.Tactic

namespace Library

/-! Blocks of memory, read and written slot by slot.  An access that does not lie within the
block has no result. -/

structure Block (α : Type) where
  bytes : Nat
  slot : Nat → α

namespace Block

variable {α : Type} {stride : Nat} {block after : Block α} {index : Int} {value : α}

def Inside (stride : Nat) (block : Block α) (index : Int) : Prop :=
  0 ≤ index ∧ (index + 1) * stride ≤ block.bytes

instance : Decidable (Inside stride block index) := inferInstanceAs (Decidable (_ ∧ _))

def load (stride : Nat) (block : Block α) (index : Int) : Option α :=
  if Inside stride block index then some (block.slot index.toNat) else none

def store (stride : Nat) (block : Block α) (index : Int) (value : α) : Option (Block α) :=
  if Inside stride block index then
    some { block with slot := Function.update block.slot index.toNat value }
  else none

theorem inside_of_lt {count position : Nat} (hroom : count * stride ≤ block.bytes)
    (hposition : position < count) : Inside stride block position := by
  refine ⟨Int.natCast_nonneg _, ?_⟩
  have hle : (position + 1) * stride ≤ count * stride := Nat.mul_le_mul_right _ hposition
  exact_mod_cast hle.trans hroom

theorem load_of_lt {count position : Nat} (hroom : count * stride ≤ block.bytes)
    (hposition : position < count) : block.load stride position = some (block.slot position) := by
  rw [load, if_pos (inside_of_lt hroom hposition), Int.toNat_natCast]

theorem store_of_lt {count position : Nat} (hroom : count * stride ≤ block.bytes)
    (hposition : position < count) :
    block.store stride position value =
      some { block with slot := Function.update block.slot position value } := by
  rw [store, if_pos (inside_of_lt hroom hposition), Int.toNat_natCast]

/-- The block after `realloc`, or `malloc` where there was none; the slots that the old block
does not fill are up to the allocator. -/
def realloc (stride : Nat) (old : Option (Block α)) (bytes : Nat) (fresh : Nat → α) : Block α where
  bytes := bytes
  slot := fun i => match old with
    | some block => if (i + 1) * stride ≤ min block.bytes bytes then block.slot i else fresh i
    | none => fresh i

theorem realloc_slot {bytes position : Nat} {fresh : Nat → α}
    (hold : (position + 1) * stride ≤ block.bytes) (hnew : block.bytes ≤ bytes) :
    (realloc stride (some block) bytes fresh).slot position = block.slot position :=
  if_pos (by omega)

/-- The slots with `count` of them from `start` on taken from the source. -/
def overlay (block : Block α) (start count : Nat) (source : Nat → α) : Block α where
  bytes := block.bytes
  slot := fun i => if start ≤ i ∧ i < start + count then source (i - start) else block.slot i

/-- `memcpy` of `count` slots to `start` on. -/
def copyIn (stride : Nat) (block : Block α) (start : Int) (count : Nat) (source : Nat → α) :
    Option (Block α) :=
  if 0 ≤ start ∧ (start + count) * stride ≤ block.bytes then
    some (block.overlay start.toNat count source)
  else none

theorem copyIn_of_le {start count : Nat} {source : Nat → α}
    (hroom : (start + count) * stride ≤ block.bytes) :
    block.copyIn stride start count source = some (block.overlay start count source) := by
  rw [copyIn, if_pos ⟨Int.natCast_nonneg _, by exact_mod_cast hroom⟩, Int.toNat_natCast]

end Block

/-! Loops that count from zero. -/

/-- Each pass of the loop takes the invariant one step further. -/
theorem foldlM_range_rule {β : Type} {body : β → Nat → Option β} {motive : Nat → β → Prop}
    {count : Nat} {start : β} (hstart : motive 0 start)
    (hbody : ∀ k b, k < count → motive k b → ∃ b', body b k = some b' ∧ motive (k + 1) b') :
    ∃ last, (List.range count).foldlM body start = some last ∧ motive count last := by
  induction count with
  | zero => exact ⟨start, rfl, hstart⟩
  | succ count ih =>
      obtain ⟨middle, hfold, hmiddle⟩ := ih fun k b hk => hbody k b (Nat.lt_succ_of_lt hk)
      obtain ⟨last, hlast, hmotive⟩ := hbody count middle (Nat.lt_succ_self _) hmiddle
      refine ⟨last, ?_, hmotive⟩
      rw [List.range_succ, List.foldlM_append, hfold]
      simpa using hlast

/-! Arithmetic on signed words of 64 bits. -/

def wrap (value : Int) : Int := value.bmod (2 ^ 64)

/-- The word as an unsigned number, the way `malloc` reads it. -/
def unsigned (value : Int) : Nat := (value % 2 ^ 64).toNat

theorem wrap_of_range {value : Int} (hlow : -2 ^ 63 ≤ value) (hhigh : value < 2 ^ 63) :
    wrap value = value :=
  Int.bmod_eq_of_le_mul_two (by omega) (by omega)

theorem wrap_natCast {value : Nat} (hhigh : value < 2 ^ 63) : wrap value = value :=
  wrap_of_range (by omega) (by exact_mod_cast hhigh)

theorem unsigned_wrap (value : Int) : unsigned (wrap value) = unsigned value := by
  unfold unsigned wrap
  congr 1
  exact_mod_cast Int.bmod_emod

theorem unsigned_natCast {value : Nat} (hhigh : value < 2 ^ 64) : unsigned value = value := by
  unfold unsigned
  omega

theorem unsigned_lt (value : Int) : unsigned value < 2 ^ 64 := by
  unfold unsigned
  omega

/-! Capacities of a growing block. -/

def growTo (least capacity needed : Int) : Int :=
  let base := if 0 < capacity then wrap (capacity * 2) else least
  if needed ≤ base then base else needed

theorem growTo_spec {least needed : Int} (capacity : Int) (hhigh : needed < 2 ^ 63)
    (hleast : least < 2 ^ 63) :
    needed ≤ growTo least capacity needed ∧ growTo least capacity needed < 2 ^ 63 := by
  have hwrap : wrap (capacity * 2) < 2 ^ 63 := by
    have := @Int.bmod_lt (capacity * 2) (2 ^ 64) (by decide)
    unfold wrap
    omega
  unfold growTo
  dsimp only
  split
  · split
    · exact ⟨by assumption, hwrap⟩
    · exact ⟨le_refl _, hhigh⟩
  · split
    · exact ⟨by assumption, hleast⟩
    · exact ⟨le_refl _, hhigh⟩

/-! The slots of a table that lies in a block row by row. -/

theorem row_index_lt {width height row column : Nat} (hrow : row < height)
    (hcolumn : column < width) : row * width + column < width * height := by
  calc row * width + column < row * width + width := Nat.add_lt_add_left hcolumn _
    _ = (row + 1) * width := (Nat.succ_mul row width).symm
    _ ≤ height * width := Nat.mul_le_mul_right _ hrow
    _ = width * height := Nat.mul_comm _ _

theorem row_index_inj {width row column row' column' : Nat} (hcolumn : column < width)
    (hcolumn' : column' < width) :
    row * width + column = row' * width + column' ↔ row = row' ∧ column = column' := by
  constructor
  · intro hsame
    have hrow : row = row' := by
      have hpos : 0 < width := Nat.lt_of_le_of_lt (Nat.zero_le _) hcolumn
      have hdiv : ∀ r c, c < width → (r * width + c) / width = r := by
        intro r c hc
        rw [Nat.add_comm, Nat.add_mul_div_right _ _ hpos, Nat.div_eq_of_lt hc, Nat.zero_add]
      rw [← hdiv row column hcolumn, hsame, hdiv row' column' hcolumn']
    subst hrow
    exact ⟨rfl, Nat.add_left_cancel hsame⟩
  · rintro ⟨rfl, rfl⟩
    rfl

end Library
