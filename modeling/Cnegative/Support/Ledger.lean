import Mathlib.Data.List.Pairwise
import Cnegative.Support.Records

namespace Cnegative

namespace Memory

open Library

/-! What the allocator is for: a ledger of the blocks that are in use and of those that
wait in quarantine. The record of a block stays with it when `realloc` moves it. -/

structure Allocation where
  record : RecordId
  ptr : Nat
  size : Nat
  deriving DecidableEq

def Allocation.Inside (block : Allocation) (target : Nat) : Prop :=
  block.ptr < target ∧ target < block.ptr + block.size

instance (block : Allocation) (target : Nat) : Decidable (block.Inside target) :=
  inferInstanceAs (Decidable (_ ∧ _))

/-- The storage of the blocks, with the guards around them, does not overlap. -/
def Allocation.Apart (first second : Allocation) : Prop :=
  first.ptr + first.size + memoryTailSize + memoryPrefixSize ≤ second.ptr ∨
    second.ptr + second.size + memoryTailSize + memoryPrefixSize ≤ first.ptr

instance (first second : Allocation) : Decidable (first.Apart second) :=
  inferInstanceAs (Decidable (_ ∨ _))

/-- A request for no bytes gets one. -/
def actualSize (size : Nat) : Nat :=
  if size = 0 then 1 else size

structure Ledger where
  live : List Allocation
  freed : List Allocation
  deriving DecidableEq

/-- The newest blocks that fit the limits. -/
def quarantined : Nat → Nat → List Allocation → List Allocation
  | _, _, [] => []
  | blocks, bytes, block :: rest =>
      if blocks = 0 ∨ bytes < block.size then []
      else block :: quarantined (blocks - 1) (bytes - block.size) rest

def totalSize (blocks : List Allocation) : Nat :=
  (blocks.map Allocation.size).sum

def findStart (blocks : List Allocation) (target : Nat) : Option Allocation :=
  blocks.find? fun block => block.ptr == target

namespace Ledger

def alloc (l : Ledger) (size basePtr : Nat) (record : RecordId) : Except Fault Ledger :=
  match allocationTotalSize (actualSize size) with
  | none => .error .R4006
  | some _ =>
      .ok { l with live := ⟨record, basePtr + memoryPrefixSize, actualSize size⟩ :: l.live }

def calloc (l : Ledger) (count size basePtr : Nat) (record : RecordId) : Except Fault Ledger :=
  match sizeMul count size with
  | none => .error .R4006
  | some total => l.alloc total basePtr record

def moved (block : Allocation) (size newBasePtr : Nat) : Allocation :=
  ⟨block.record, newBasePtr + memoryPrefixSize, actualSize size⟩

def realloc (l : Ledger) (ptr size newBasePtr : Nat) (record : RecordId) :
    Except Fault Ledger :=
  if ptr = 0 then l.alloc size newBasePtr record
  else
    match findStart l.live ptr with
    | some block =>
        match allocationTotalSize (actualSize size) with
        | none => .error .R4009
        | some _ =>
            .ok { l with live := l.live.map fun other =>
              if other = block then moved block size newBasePtr else other }
    | none => if (findStart l.freed ptr).isSome then .error .R4013 else .error .R4002

def free (l : Ledger) (ptr : Nat) : Except Fault Ledger :=
  if ptr = 0 then .ok l
  else
    match findStart l.live ptr with
    | some block =>
        .ok ⟨l.live.erase block,
          quarantined quarantineBlockLimit quarantineByteLimit (block :: l.freed)⟩
    | none =>
        if (findStart l.freed ptr).isSome then .error .R4010
        else if ∃ block ∈ l.live ++ l.freed, block.Inside ptr then .error .R4011
        else .error .R4003

def step (l : Ledger) : Op → Except Fault Ledger
  | .alloc size basePtr record => l.alloc size basePtr record
  | .calloc count size basePtr record => l.calloc count size basePtr record
  | .realloc ptr size newBasePtr record => l.realloc ptr size newBasePtr record
  | .free ptr => l.free ptr

def run (l : Ledger) : List Op → Except Fault Ledger
  | [] => .ok l
  | op :: rest =>
      match l.step op with
      | .error fault => .error fault
      | .ok next => next.run rest

/-- What `malloc` promises: nothing it returns overlaps what it has not got back. -/
def Fresh (l : Ledger) (block : Allocation) : Prop :=
  ∀ other ∈ l.live ++ l.freed, other.record ≠ block.record ∧ other.Apart block

instance (l : Ledger) (block : Allocation) : Decidable (l.Fresh block) :=
  inferInstanceAs (Decidable (∀ _ ∈ _, _))

/-- The results of `malloc` and `realloc` in the operation keep their promises. The old
storage of a block that is reallocated may be used again. -/
def Fits (l : Ledger) : Op → Prop
  | .alloc size basePtr record =>
      l.Fresh ⟨record, basePtr + memoryPrefixSize, actualSize size⟩
  | .calloc count size basePtr record =>
      l.Fresh ⟨record, basePtr + memoryPrefixSize, actualSize (count * size)⟩
  | .realloc ptr size newBasePtr record =>
      if ptr = 0 then l.Fresh ⟨record, newBasePtr + memoryPrefixSize, actualSize size⟩
      else ∀ block ∈ l.live, block.ptr = ptr → ∀ other ∈ l.live ++ l.freed, other ≠ block →
        other.Apart (moved block size newBasePtr)
  | .free _ => True

def RunFits (l : Ledger) : List Op → Prop
  | [] => True
  | op :: rest =>
      l.Fits op ∧
        match l.step op with
        | .error _ => True
        | .ok next => next.RunFits rest

instance (l : Ledger) : (op : Op) → Decidable (l.Fits op)
  | .alloc _ _ _ => inferInstanceAs (Decidable (l.Fresh _))
  | .calloc _ _ _ _ => inferInstanceAs (Decidable (l.Fresh _))
  | .realloc _ _ _ _ => inferInstanceAs (Decidable (ite _ _ _))
  | .free _ => inferInstanceAs (Decidable True)

instance decidableRunFits (l : Ledger) : (ops : List Op) → Decidable (l.RunFits ops)
  | [] => inferInstanceAs (Decidable True)
  | op :: rest =>
      match hstep : l.step op with
      | .error _ => decidable_of_iff (l.Fits op) (by simp [RunFits, hstep])
      | .ok next =>
          haveI := decidableRunFits next rest
          decidable_of_iff (l.Fits op ∧ next.RunFits rest) (by simp [RunFits, hstep])

/-- The blocks are apart, and the quarantine is within its limits. -/
structure Sound (l : Ledger) : Prop where
  records : ((l.live ++ l.freed).map Allocation.record).Nodup
  apart : (l.live ++ l.freed).Pairwise Allocation.Apart
  sizes : ∀ block ∈ l.live ++ l.freed, 0 < block.size ∧ memoryPrefixSize ≤ block.ptr
  blocks : l.freed.length ≤ quarantineBlockLimit
  bytes : totalSize l.freed ≤ quarantineByteLimit

end Ledger

/-! The quarantine. -/

@[simp] theorem totalSize_nil : totalSize [] = 0 :=
  rfl

@[simp] theorem totalSize_cons (block : Allocation) (rest : List Allocation) :
    totalSize (block :: rest) = block.size + totalSize rest :=
  rfl

@[simp] theorem totalSize_append (front back : List Allocation) :
    totalSize (front ++ back) = totalSize front + totalSize back := by
  simp [totalSize]

theorem quarantined_of_fits (freed : List Allocation) :
    ∀ blocks bytes, freed.length ≤ blocks → totalSize freed ≤ bytes →
      quarantined blocks bytes freed = freed := by
  induction freed with
  | nil => intros; rfl
  | cons block rest ih =>
      intro blocks bytes hblocks hbytes
      simp only [List.length_cons, totalSize_cons] at hblocks hbytes
      rw [quarantined, if_neg (by omega), ih _ _ (by omega) (by omega)]

/-- The oldest block goes when the limits are exceeded. -/
theorem quarantined_concat (front : List Allocation) (last : Allocation) :
    ∀ blocks bytes, (blocks < (front ++ [last]).length ∨ bytes < totalSize (front ++ [last])) →
      quarantined blocks bytes (front ++ [last]) = quarantined blocks bytes front := by
  induction front with
  | nil =>
      intro blocks bytes hover
      simp only [List.nil_append, List.length_singleton, totalSize_cons, totalSize_nil] at hover
      simp only [List.nil_append, quarantined, ite_eq_left_iff]
      omega
  | cons block rest ih =>
      intro blocks bytes hover
      simp only [List.cons_append, List.length_cons, totalSize_cons] at hover
      rw [List.cons_append, quarantined, quarantined]
      split
      · rfl
      · rw [ih _ _ (by omega)]

theorem quarantined_front (freed : List Allocation) :
    ∀ blocks bytes, quarantined blocks bytes freed <+: freed := by
  induction freed with
  | nil => intros; exact List.prefix_rfl
  | cons block rest ih =>
      intro blocks bytes
      rw [quarantined]
      split
      · exact List.nil_prefix
      · exact List.cons_prefix_cons.mpr ⟨rfl, ih _ _⟩

theorem quarantined_limits (freed : List Allocation) :
    ∀ blocks bytes, (quarantined blocks bytes freed).length ≤ blocks ∧
      totalSize (quarantined blocks bytes freed) ≤ bytes := by
  induction freed with
  | nil => intros; simp [quarantined]
  | cons block rest ih =>
      intro blocks bytes
      rw [quarantined]
      split
      · simp
      · obtain ⟨hblocks, hbytes⟩ := ih (blocks - 1) (bytes - block.size)
        simp only [List.length_cons, totalSize_cons]
        omega

/-! Blocks that are apart. -/

theorem Allocation.Apart.symm {first second : Allocation} (hapart : first.Apart second) :
    second.Apart first :=
  Or.symm hapart

namespace Ledger

variable {l : Ledger}

theorem Sound.apart_of_ne (hsound : l.Sound) {first second : Allocation}
    (hfirst : first ∈ l.live ++ l.freed) (hsecond : second ∈ l.live ++ l.freed)
    (hne : first ≠ second) : first.Apart second :=
  haveI : Std.Symm Allocation.Apart := ⟨fun _ _ => Allocation.Apart.symm⟩
  hsound.apart.forall hfirst hsecond hne

/-- A pointer starts one block at most. -/
theorem Sound.start_unique (hsound : l.Sound) {first second : Allocation}
    (hfirst : first ∈ l.live ++ l.freed) (hsecond : second ∈ l.live ++ l.freed)
    (hptr : first.ptr = second.ptr) : first = second := by
  cases Decidable.em (first = second) with
  | inl hsame => exact hsame
  | inr hne =>
      have hapart := hsound.apart_of_ne hfirst hsecond hne
      unfold Allocation.Apart at hapart
      simp only [memoryTailSize, memoryPrefixSize] at hapart
      omega

/-- No block starts inside another. -/
theorem Sound.not_inside (hsound : l.Sound) {first second : Allocation}
    (hfirst : first ∈ l.live ++ l.freed) (hsecond : second ∈ l.live ++ l.freed) :
    ¬ first.Inside second.ptr := by
  intro hinside
  unfold Allocation.Inside at hinside
  have hne : first ≠ second := by
    rintro rfl
    omega
  have hapart := hsound.apart_of_ne hfirst hsecond hne
  unfold Allocation.Apart at hapart
  simp only [memoryTailSize, memoryPrefixSize] at hapart
  omega

theorem Sound.record_unique (hsound : l.Sound) {first second : Allocation}
    (hfirst : first ∈ l.live ++ l.freed) (hsecond : second ∈ l.live ++ l.freed)
    (hrecord : first.record = second.record) : first = second :=
  List.inj_on_of_nodup_map hsound.records hfirst hsecond hrecord

theorem actualSize_pos (size : Nat) : 0 < actualSize size := by
  unfold actualSize
  split <;> omega

theorem Sound.nil : Ledger.Sound ⟨[], []⟩ := by
  constructor <;> simp

theorem Sound.push (hsound : l.Sound) {block : Allocation} (hfresh : l.Fresh block)
    (hsize : 0 < block.size) (hptr : memoryPrefixSize ≤ block.ptr) :
    Sound { l with live := block :: l.live } where
  records := by
    rw [List.cons_append, List.map_cons, List.nodup_cons]
    refine ⟨fun hmem => ?_, hsound.records⟩
    obtain ⟨other, hother, hrecord⟩ := List.mem_map.mp hmem
    exact (hfresh other hother).1 hrecord
  apart := by
    rw [List.cons_append, List.pairwise_cons]
    exact ⟨fun other hother => (hfresh other hother).2.symm, hsound.apart⟩
  sizes other hother := by
    rw [List.cons_append, List.mem_cons] at hother
    rcases hother with rfl | hold
    · exact ⟨hsize, hptr⟩
    · exact hsound.sizes other hold
  blocks := hsound.blocks
  bytes := hsound.bytes

theorem Sound.alloc (hsound : l.Sound) {size basePtr : Nat} {record : RecordId} {next : Ledger}
    (hfresh : l.Fresh ⟨record, basePtr + memoryPrefixSize, actualSize size⟩)
    (hstep : l.alloc size basePtr record = .ok next) : next.Sound := by
  unfold Ledger.alloc at hstep
  split at hstep
  · contradiction
  · rw [← Except.ok.inj hstep]
    exact hsound.push hfresh (actualSize_pos size) (Nat.le_add_left _ _)

/-- Blocks are only moved about and left out. -/
theorem Sound.of_sublist (hsound : l.Sound) {next : Ledger} {blocks : List Allocation}
    (hperm : blocks.Perm (l.live ++ l.freed)) (hsub : (next.live ++ next.freed).Sublist blocks)
    (hblocks : next.freed.length ≤ quarantineBlockLimit)
    (hbytes : totalSize next.freed ≤ quarantineByteLimit) : next.Sound where
  records := ((hperm.map _).nodup_iff.mpr hsound.records).sublist (hsub.map _)
  apart := (hperm.symm.pairwise hsound.apart fun hapart => hapart.symm).sublist hsub
  sizes block hmem := hsound.sizes block (hperm.subset (hsub.subset hmem))
  blocks := hblocks
  bytes := hbytes

theorem Sound.free (hsound : l.Sound) {ptr : Nat} {next : Ledger}
    (hstep : l.free ptr = .ok next) : next.Sound := by
  unfold Ledger.free at hstep
  split at hstep
  · rw [← Except.ok.inj hstep]
    exact hsound
  · split at hstep
    · rename_i block hfind
      have hmem : block ∈ l.live := List.mem_of_find?_eq_some hfind
      rw [← Except.ok.inj hstep]
      obtain ⟨hblocks, hbytes⟩ :=
        quarantined_limits (block :: l.freed) quarantineBlockLimit quarantineByteLimit
      refine @Sound.of_sublist l hsound _ (l.live.erase block ++ block :: l.freed) ?_ ?_ hblocks
        hbytes
      · refine List.perm_middle.trans ?_
        exact ((List.perm_cons_erase hmem).symm.append_right l.freed)
      · exact (List.Sublist.refl _).append (quarantined_front _ _ _).sublist
    · split at hstep
      · contradiction
      · split at hstep <;> contradiction

/-- The place of a block in the list. -/
theorem Sound.split_live (hsound : l.Sound) {block : Allocation} (hmem : block ∈ l.live) :
    ∃ front back, l.live = front ++ block :: back ∧ block ∉ front ++ back ∧
      l.live.erase block = front ++ back ∧
      ∀ new, (l.live.map fun old => if old = block then new else old) =
        front ++ new :: back := by
  obtain ⟨front, back, hlive⟩ := List.append_of_mem hmem
  have hnodup : l.live.Nodup := by
    have hall := List.Nodup.of_map _ hsound.records
    exact (List.nodup_append.mp hall).1
  rw [hlive] at hnodup ⊢
  have hout := (List.nodup_cons.mp (List.nodup_middle.mp hnodup)).1
  rw [List.mem_append, not_or] at hout
  have hkeep : ∀ {rest : List Allocation} (new : Allocation), block ∉ rest →
      (rest.map fun old => if old = block then new else old) = rest := by
    intro rest new hrest
    refine (List.map_congr_left fun old hold => ?_).trans rest.map_id
    rw [id_eq, if_neg]
    rintro rfl
    exact hrest hold
  refine ⟨front, back, rfl, by simp [hout.1, hout.2], ?_, fun new => ?_⟩
  · rw [List.erase_append_right _ hout.1, List.erase_cons_head]
  · rw [List.map_append, List.map_cons, hkeep new hout.1, hkeep new hout.2, if_pos rfl]

theorem Sound.realloc (hsound : l.Sound) {ptr size newBasePtr : Nat} {record : RecordId}
    {next : Ledger} (hfits : l.Fits (.realloc ptr size newBasePtr record))
    (hstep : l.realloc ptr size newBasePtr record = .ok next) : next.Sound := by
  unfold Ledger.realloc at hstep
  dsimp only [Ledger.Fits] at hfits
  split at hstep
  · rename_i hnull
    rw [if_pos hnull] at hfits
    exact hsound.alloc hfits hstep
  · rename_i hnull
    rw [if_neg hnull] at hfits
    split at hstep
    · rename_i block hfind
      split at hstep
      · contradiction
      · have hmem : block ∈ l.live := List.mem_of_find?_eq_some hfind
        have hptr : block.ptr = ptr := by simpa using List.find?_some hfind
        obtain ⟨front, back, hlive, hout, -, hmap⟩ := hsound.split_live hmem
        have hnext : next = ⟨front ++ moved block size newBasePtr :: back, l.freed⟩ := by
          rw [← Except.ok.inj hstep, hmap]
        have hrest : ∀ other ∈ (front ++ back) ++ l.freed,
            other ∈ l.live ++ l.freed ∧ other ≠ block := by
          intro other hother
          have hin : other ∈ l.live ++ l.freed := by
            rw [hlive]
            simp only [List.mem_append, List.mem_cons] at hother ⊢
            tauto
          refine ⟨hin, ?_⟩
          rintro rfl
          have hnodup := List.Nodup.of_map _ hsound.records
          rw [hlive, List.append_assoc, List.cons_append] at hnodup
          have hfresh := (List.nodup_cons.mp (List.nodup_middle.mp hnodup)).1
          rw [List.append_assoc] at hother
          exact hfresh hother
        have hold : Sound ⟨front ++ back, l.freed⟩ := by
          refine hsound.of_sublist (List.Perm.refl _) ?_ hsound.blocks hsound.bytes
          rw [hlive]
          exact ((List.Sublist.refl _).append (List.sublist_cons_self _ _)).append
            (List.Sublist.refl _)
        have hpushed : Sound ⟨moved block size newBasePtr :: (front ++ back), l.freed⟩ := by
          refine hold.push (fun other hother => ?_) (actualSize_pos size) (Nat.le_add_left _ _)
          obtain ⟨hin, hne⟩ := hrest other hother
          refine ⟨fun hrecord => hne ?_, hfits block hmem hptr other hin hne⟩
          exact hsound.record_unique hin (List.mem_append_left _ hmem) hrecord
        rw [hnext]
        refine hpushed.of_sublist (List.Perm.append_right _ List.perm_middle)
          (List.Sublist.refl _) hsound.blocks hsound.bytes
    · split at hstep <;> contradiction

theorem sizeMul_eq_some {left right total : Nat} (htotal : sizeMul left right = some total) :
    total = left * right := by
  unfold sizeMul at htotal
  split at htotal
  · rename_i hzero
    rw [← Option.some.inj htotal]
    rcases hzero with rfl | rfl <;> simp
  · split at htotal
    · contradiction
    · exact (Option.some.inj htotal).symm

theorem Sound.step (hsound : l.Sound) {op : Op} (hfits : l.Fits op) {next : Ledger}
    (hstep : l.step op = .ok next) : next.Sound := by
  cases op with
  | alloc size basePtr record => exact hsound.alloc hfits hstep
  | calloc count size basePtr record =>
      simp only [Ledger.step, Ledger.calloc] at hstep
      split at hstep
      · contradiction
      · rename_i total htotal
        rw [sizeMul_eq_some htotal] at hstep
        exact hsound.alloc hfits hstep
  | realloc ptr size newBasePtr record => exact hsound.realloc hfits hstep
  | free ptr => exact hsound.free hstep

end Ledger

end Memory

end Cnegative
