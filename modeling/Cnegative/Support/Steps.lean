import Cnegative.Support.Books

namespace Cnegative

namespace Memory

open Library

/-! Every operation does what it does to the ledger. -/

/-- Both end in the same fault, or the allocator keeps the new ledger. -/
def Agree : Outcome Allocator → Except Fault Ledger → Prop
  | some (.error fault), .error fault' => fault = fault'
  | some (.ok a), .ok l => a.Keeps l
  | _, _ => False

section Step

variable {a : Allocator} {l : Ledger}

theorem Ledger.Sound.disjoint (hsound : l.Sound) {record : RecordId}
    (hlive : record ∈ recordsOf l.live) : record ∉ recordsOf l.freed := by
  have hnodup : (recordsOf l.live ++ recordsOf l.freed).Nodup := by
    rw [← recordsOf_append]
    exact hsound.records
  exact fun hfreed => (List.nodup_append.mp hnodup).2.2 record hlive record hfreed rfl

theorem Ledger.Fresh.record_not_mem {block : Allocation} (hfresh : l.Fresh block)
    {blocks : List Allocation} (hsubset : blocks ⊆ l.live ++ l.freed) :
    block.record ∉ recordsOf blocks := by
  intro hmem
  obtain ⟨other, hother, hrecord⟩ := List.mem_map.mp hmem
  exact (hfresh other (hsubset hother)).1 hrecord

theorem Allocator.Keeps.find (hkeeps : a.Keeps l) (hsound : l.Sound) (target : Nat) :
    a.find target = some ((findStart l.live target).map Allocation.record) := by
  rw [Allocator.find, hkeeps.liveBlocks]
  exact hkeeps.live.find (fun _ hfirst _ hsecond => hsound.start_unique
    (List.mem_append_left _ hfirst) (List.mem_append_left _ hsecond)) target

theorem Allocator.Keeps.findFreed (hkeeps : a.Keeps l) (hsound : l.Sound) (target : Nat) :
    a.findFreed target = some ((findStart l.freed target).map Allocation.record) := by
  rw [Allocator.findFreed, hkeeps.quarantineBlocks]
  exact hkeeps.freed.find (fun _ hfirst _ hsecond => hsound.start_unique
    (List.mem_append_right _ hfirst) (List.mem_append_right _ hsecond)) target

theorem Allocator.Keeps.alloc (hkeeps : a.Keeps l) (hsound : l.Sound) {size basePtr : Nat}
    {record : RecordId}
    (hfresh : l.Fresh ⟨record, basePtr + memoryPrefixSize, actualSize size⟩) :
    Agree (allocImpl a size basePtr record) (l.alloc size basePtr record) := by
  rw [allocImpl, Ledger.alloc]
  rw [show (if size = 0 then 1 else size) = actualSize size from rfl]
  cases allocationTotalSize (actualSize size) with
  | none => exact rfl
  | some total =>
      have hliveOut := hfresh.record_not_mem (List.subset_append_left l.live l.freed)
      have hfreedOut := hfresh.record_not_mem (List.subset_append_right l.live l.freed)
      have hliveNe : ∀ other ∈ recordsOf l.live, other ≠ record := by
        rintro other hother rfl
        exact hliveOut hother
      have hfreedNe : ∀ other ∈ recordsOf l.freed, other ≠ record := by
        rintro other hother rfl
        exact hfreedOut hother
      obtain ⟨rehashed, hrun, hcapacity, htracks, hrehashed⟩ :=
        hkeeps.live.rehash (Nat.succ_ne_zero a.liveBlocks)
      have hrehash : a.rehashActive (a.liveBlocks + 1) = some (a.withActive rehashed) := by
        rw [Allocator.rehashActive, hkeeps.liveBlocks]
        rw [hkeeps.liveBlocks] at hrun
        exact congrArg (Option.map a.withActive) hrun
      dsimp only
      rw [hrehash, Option.map_some]
      let created := (a.withActive rehashed).recordCreate record basePtr
        (basePtr + memoryPrefixSize) (actualSize size)
      have hcreated : created.Tracks created.liveList created.active l.live := by
        refine htracks.frame (fun other hother => ?_) rfl (fun other hother => ?_) rfl rfl
          fun other hother => setField_other (hliveNe other hother)
        · exact ⟨setField_other (hliveNe other hother), setField_other (hliveNe other hother),
            setField_other (hliveNe other hother)⟩
        · exact ⟨setField_other (hliveNe other hother), setField_other (hliveNe other hother)⟩
      have hdescribes : created.Describes ⟨record, basePtr + memoryPrefixSize, actualSize size⟩ :=
        ⟨setField_same _ _ _, setField_same _ _ _,
          congrArg (· + memoryPrefixSize) (setField_same _ _ _)⟩
      have hinserted := hcreated.insert hcapacity hliveOut hdescribes
      obtain ⟨-, -, hlinks⟩ := listInsertHead_holds hcreated.list hliveOut
      constructor
      · exact hinserted.frame (fun _ _ => ⟨rfl, rfl, rfl⟩) rfl (fun _ _ => ⟨rfl, rfl⟩) rfl rfl
          fun _ _ => rfl
      · refine hkeeps.freed.frame (fun other hother => ?_) rfl (fun other hother => ?_) rfl rfl
          fun other hother => ?_
        · exact ⟨setField_other (hfreedNe other hother), setField_other (hfreedNe other hother),
            setField_other (hfreedNe other hother)⟩
        · obtain ⟨hnext, hprev⟩ := hlinks other (fun hlive => hsound.disjoint hlive hother)
            (hfreedNe other hother)
          exact ⟨hnext.trans (setField_other (hfreedNe other hother)),
            hprev.trans (setField_other (hfreedNe other hother))⟩
        · exact ((insertRecord_bucketNext _ _ (hfreedNe other hother)).trans
            (setField_other (hfreedNe other hother))).trans
              (hrehashed other fun hlive => hsound.disjoint hlive hother)
      · exact hkeeps.freedTail
      · exact congrArg (· + 1) hkeeps.liveBlocks
      · change a.liveBytes + actualSize size = _
        rw [hkeeps.liveBytes, Nat.add_comm]
        rfl
      · exact hkeeps.quarantineBlocks
      · exact hkeeps.quarantineBytes

theorem Allocator.Keeps.reallocRecord (hkeeps : a.Keeps l) (hsound : l.Sound)
    {block : Allocation} (hmem : block ∈ l.live) (size newBasePtr : Nat) :
    Agree (reallocRecord a block.record block.ptr size newBasePtr)
      (match allocationTotalSize (actualSize size) with
        | none => .error .R4009
        | some _ => .ok { l with live := l.live.map fun other =>
            if other = block then Ledger.moved block size newBasePtr else other }) := by
  rw [Memory.reallocRecord]
  rw [show (if size = 0 then 1 else size) = actualSize size from rfl]
  cases allocationTotalSize (actualSize size) with
  | none => exact rfl
  | some total =>
      obtain ⟨front, back, hlive, -, -, hmap⟩ := hsound.split_live hmem
      rw [hmap]
      have htracks : a.Tracks a.liveList a.active (front ++ block :: back) := by
        rw [← hlive]
        exact hkeeps.live
      have hblock : a.Describes block := hkeeps.live.describes block hmem
      obtain ⟨removed, hrun, hcapacity, hholds, hother⟩ := htracks.unlink
      have hstorage : removed.capacity ≠ 0 := by
        rw [hcapacity]
        exact htracks.table.storage (by simp)
      have hrun' : bucketRemoveRecord (a.liveBlocks + 1) a.active block.record block.ptr =
          some removed := by
        rw [hkeeps.liveBlocks, hlive]
        exact hrun
      dsimp only
      rw [hrun', Option.map_some]
      have hnodup := htracks.list.nodup
      rw [recordsOf_append, recordsOf_cons, List.nodup_middle, List.nodup_cons] at hnodup
      have hne : ∀ other ∈ recordsOf (front ++ back), other ≠ block.record := by
        rintro other hother rfl
        exact hnodup.1 (by simpa using hother)
      have hfreedNe : ∀ other ∈ recordsOf l.freed, other ≠ block.record := by
        rintro other hother rfl
        exact hsound.disjoint (record_mem hmem) hother
      let ptr := setField a.ptr block.record (newBasePtr + memoryPrefixSize)
      have hmovedTable : removed.Holds ptr (recordsOf (front ++ back)) :=
        hholds.congr rfl rfl (fun _ _ => rfl) fun other hother => setField_other (hne other hother)
      have hout : block.record ∉ recordsOf (front ++ back) := fun hmem => hne _ hmem rfl
      have htable := hmovedTable.insert hstorage hout
      have hrecords : recordsOf (front ++ Ledger.moved block size newBasePtr :: back) =
          recordsOf (front ++ block :: back) := by
        simp [Ledger.moved]
      constructor
      · constructor
        · rw [hrecords]
          exact htracks.list.frame rfl fun _ _ => ⟨rfl, rfl⟩
        · rw [hrecords]
          refine ⟨htable.hashed.of_mem_iff fun other => ?_, fun _ => hstorage⟩
          simp only [recordsOf_append, recordsOf_cons, List.mem_append, List.mem_cons]
          tauto
        · intro other hother
          rw [List.mem_append, List.mem_cons] at hother
          have hcases : other = Ledger.moved block size newBasePtr ∨ other ∈ front ++ back := by
            rw [List.mem_append]
            tauto
          rcases hcases with rfl | hold
          · exact ⟨setField_same _ _ _, setField_same _ _ _,
              congrArg (· + memoryPrefixSize) (setField_same _ _ _)⟩
          · have hrecord := hne _ (record_mem hold)
            have hdescribes := htracks.describes other (by
              simp only [List.mem_append, List.mem_cons] at hold ⊢
              tauto)
            refine ⟨?_, ?_, ?_⟩
            · exact (setField_other hrecord).trans hdescribes.1
            · exact (setField_other hrecord).trans hdescribes.2.1
            · exact (congrArg (· + memoryPrefixSize) (setField_other hrecord)).trans hdescribes.2.2
      · refine hkeeps.freed.frame (fun other hother => ?_) rfl (fun _ _ => ⟨rfl, rfl⟩) rfl rfl
          fun other hfreed => ?_
        · exact ⟨setField_other (hfreedNe other hother), setField_other (hfreedNe other hother),
            setField_other (hfreedNe other hother)⟩
        · refine (insertRecord_bucketNext _ _ (hfreedNe other hfreed)).trans (hother other ?_)
          rw [← hlive]
          exact fun hin => hsound.disjoint hin hfreed
      · exact hkeeps.freedTail
      · change a.liveBlocks = _
        rw [hkeeps.liveBlocks, hlive]
        simp
      · change a.liveBytes - a.size block.record + actualSize size = _
        rw [hkeeps.liveBytes, hblock.2.1, hlive]
        simp only [totalSize_append, totalSize_cons, Ledger.moved]
        omega
      · exact hkeeps.quarantineBlocks
      · exact hkeeps.quarantineBytes

theorem Allocator.Keeps.freeRecord (hkeeps : a.Keeps l) (hsound : l.Sound) {block : Allocation}
    (hmem : block ∈ l.live) :
    ∃ a', freeRecord a block.record block.ptr = some a' ∧
      a'.Keeps ⟨l.live.erase block,
        quarantined quarantineBlockLimit quarantineByteLimit (block :: l.freed)⟩ := by
  obtain ⟨front, back, hlive, -, herase, -⟩ := hsound.split_live hmem
  rw [herase]
  have htracks : a.Tracks a.liveList a.active (front ++ block :: back) := by
    rw [← hlive]
    exact hkeeps.live
  have hblock : a.Describes block := hkeeps.live.describes block hmem
  obtain ⟨removed, hrun, hcapacity, hholds, hother⟩ := htracks.unlink
  have hrun' : bucketRemoveRecord (a.liveBlocks + 1) a.active block.record block.ptr =
      some removed := by
    rw [hkeeps.liveBlocks, hlive]
    exact hrun
  have hlist := htracks.list
  rw [recordsOf_append, recordsOf_cons] at hlist
  obtain ⟨-, -, hlinks⟩ := listRemoveRecord_holds hlist
  have hremoved := htracks.listRemove hholds
  have hapart : ∀ other ∈ recordsOf l.freed, other ∉ recordsOf (front ++ block :: back) := by
    rw [← hlive]
    exact fun other hfreed hin => hsound.disjoint hin hfreed
  have hnodup : (recordsOf ((front ++ back) ++ block :: l.freed)).Nodup := by
    have hall := hsound.records
    rw [hlive] at hall
    refine ((List.Perm.map Allocation.record ?_).nodup_iff).mp hall
    exact (List.perm_middle.append_right l.freed).trans List.perm_middle.symm
  rw [Memory.freeRecord, hrun', Option.bind_some]
  refine Allocator.Keeps.moveToQuarantine ?_ hblock hnodup
  constructor
  · exact hremoved.frame (fun _ _ => ⟨rfl, rfl, rfl⟩) rfl (fun _ _ => ⟨rfl, rfl⟩) rfl rfl
      fun _ _ => rfl
  · refine hkeeps.freed.frame (fun _ _ => ⟨rfl, rfl, rfl⟩) rfl (fun other hfreed => ?_) rfl rfl
      fun other hfreed => hother other (hapart other hfreed)
    exact hlinks other (by simpa using hapart other hfreed)
  · exact hkeeps.freedTail
  · change a.liveBlocks - 1 = _
    rw [hkeeps.liveBlocks, hlive]
    simp
  · change a.liveBytes - a.size block.record = _
    rw [hkeeps.liveBytes, hblock.2.1, hlive]
    simp only [totalSize_append, totalSize_cons]
    omega
  · exact hkeeps.quarantineBlocks
  · exact hkeeps.quarantineBytes

theorem findStart_eq_some {blocks : List Allocation} {target : Nat} {block : Allocation}
    (hfind : findStart blocks target = some block) : block ∈ blocks ∧ block.ptr = target :=
  ⟨List.mem_of_find?_eq_some hfind, by simpa using List.find?_some hfind⟩

theorem Allocator.Keeps.realloc (hkeeps : a.Keeps l) (hsound : l.Sound) {ptr size newBasePtr : Nat}
    {record : RecordId} (hfits : l.Fits (.realloc ptr size newBasePtr record)) :
    Agree (reallocImpl a ptr size newBasePtr record) (l.realloc ptr size newBasePtr record) := by
  dsimp only [Ledger.Fits] at hfits
  rw [reallocImpl, Ledger.realloc]
  cases Decidable.em (ptr = 0) with
  | inl hnull =>
      rw [if_pos hnull] at hfits
      rw [if_pos hnull, if_pos hnull]
      exact hkeeps.alloc hsound hfits
  | inr hnull =>
      rw [if_neg hnull, if_neg hnull, hkeeps.find hsound]
      cases hfind : findStart l.live ptr with
      | some block =>
          obtain ⟨hmem, rfl⟩ := findStart_eq_some hfind
          exact hkeeps.reallocRecord hsound hmem size newBasePtr
      | none =>
          simp only [Option.map_none, Option.bind_some, hkeeps.findFreed hsound]
          cases findStart l.freed ptr with
          | none => exact rfl
          | some block => exact rfl

theorem Allocator.Keeps.containing (hkeeps : a.Keeps l) (target : Nat) :
    (findContainingRecordInList a.ptr a.size a.next target (a.liveBlocks + 1) a.head =
        some ((l.live.find? fun block => decide (block.Inside target)).map Allocation.record)) ∧
      findContainingRecordInList a.ptr a.size a.next target (a.quarantineBlocks + 1)
        a.freedHead =
          some ((l.freed.find? fun block => decide (block.Inside target)).map
            Allocation.record) := by
  rw [hkeeps.liveBlocks, hkeeps.quarantineBlocks]
  exact ⟨hkeeps.live.findContaining target, hkeeps.freed.findContaining target⟩

theorem Allocator.Keeps.free (hkeeps : a.Keeps l) (hsound : l.Sound) (ptr : Nat) :
    Agree (freeImpl a ptr) (l.free ptr) := by
  rw [freeImpl, Ledger.free]
  cases Decidable.em (ptr = 0) with
  | inl hnull =>
      rw [if_pos hnull, if_pos hnull]
      exact hkeeps
  | inr hnull =>
      rw [if_neg hnull, if_neg hnull, hkeeps.find hsound]
      cases hfind : findStart l.live ptr with
      | some block =>
          obtain ⟨hmem, rfl⟩ := findStart_eq_some hfind
          obtain ⟨a', hrun, hkeeps'⟩ := hkeeps.freeRecord hsound hmem
          simp only [Option.map_some, Option.bind_some, hrun]
          exact hkeeps'
      | none =>
          obtain ⟨hlive, hfreed⟩ := hkeeps.containing ptr
          simp only [Option.map_none, Option.bind_some, hkeeps.findFreed hsound, hlive, hfreed]
          cases findStart l.freed ptr with
          | some block => exact rfl
          | none =>
              simp only [Option.map_none, Option.isSome_none, Bool.false_eq_true, if_false]
              cases hinLive : l.live.find? fun block => decide (block.Inside ptr) with
              | some block =>
                  have hinside : ∃ block ∈ l.live ++ l.freed, block.Inside ptr :=
                    ⟨block, List.mem_append_left _ (List.mem_of_find?_eq_some hinLive),
                      by simpa using List.find?_some hinLive⟩
                  rw [if_pos hinside]
                  exact rfl
              | none =>
                  simp only [Option.map_none]
                  cases hinFreed : l.freed.find? fun block => decide (block.Inside ptr) with
                  | some block =>
                      have hinside : ∃ block ∈ l.live ++ l.freed, block.Inside ptr :=
                        ⟨block, List.mem_append_right _ (List.mem_of_find?_eq_some hinFreed),
                          by simpa using List.find?_some hinFreed⟩
                      rw [if_pos hinside]
                      exact rfl
                  | none =>
                      simp only [List.find?_eq_none, decide_eq_true_eq] at hinLive hinFreed
                      have hinside : ¬ ∃ block ∈ l.live ++ l.freed, block.Inside ptr := by
                        rintro ⟨block, hmem, hin⟩
                        rcases List.mem_append.mp hmem with hold | hold
                        · exact hinLive block hold hin
                        · exact hinFreed block hold hin
                      rw [if_neg hinside]
                      exact rfl

theorem Allocator.Keeps.step (hkeeps : a.Keeps l) (hsound : l.Sound) {op : Op}
    (hfits : l.Fits op) : Agree (a.step op) (l.step op) := by
  cases op with
  | alloc size basePtr record => exact hkeeps.alloc hsound hfits
  | calloc count size basePtr record =>
      simp only [Allocator.step, Ledger.step, callocImpl, Ledger.calloc]
      cases htotal : sizeMul count size with
      | none => exact rfl
      | some total =>
          have hfresh : l.Fresh ⟨record, basePtr + memoryPrefixSize,
            actualSize (count * size)⟩ := hfits
          rw [← Ledger.sizeMul_eq_some htotal] at hfresh
          exact hkeeps.alloc hsound hfresh
  | realloc ptr size newBasePtr record => exact hkeeps.realloc hsound hfits
  | free ptr => exact hkeeps.free hsound ptr

end Step

/-! Runs. -/

/-- A run of the allocator is the run of the ledger, and its loops all end. -/
theorem run_agrees (ops : List Op) :
    ∀ (a : Allocator) (l : Ledger), a.Keeps l → l.Sound → l.RunFits ops →
      Agree (a.run ops) (l.run ops) ∧ ∀ last, l.run ops = .ok last → last.Sound := by
  induction ops with
  | nil =>
      intro a l hkeeps hsound _
      refine ⟨hkeeps, fun last hlast => ?_⟩
      rw [← Except.ok.inj hlast]
      exact hsound
  | cons op rest ih =>
      intro a l hkeeps hsound hfits
      obtain ⟨hop, hrest⟩ := hfits
      have hstep := hkeeps.step hsound hop
      rw [Allocator.run, Ledger.run]
      cases hledger : l.step op with
      | error fault =>
          rw [hledger] at hstep
          cases hrun : a.step op with
          | none => simp [hrun, Agree] at hstep
          | some outcome =>
              cases outcome with
              | ok next => simp [hrun, Agree] at hstep
              | error fault' =>
                  rw [hrun] at hstep
                  exact ⟨hstep, by simp⟩
      | ok next =>
          rw [hledger] at hstep hrest
          cases hrun : a.step op with
          | none => simp [hrun, Agree] at hstep
          | some outcome =>
              cases outcome with
              | error fault => simp [hrun, Agree] at hstep
              | ok after =>
                  rw [hrun] at hstep
                  exact ih after next hstep (hsound.step hop hledger) hrest

theorem init_keeps : Allocator.init.Keeps ⟨[], []⟩ := by
  constructor <;> try rfl
  · exact ⟨⟨rfl, .nil⟩, ⟨Hashed.nil, by simp⟩, by simp⟩
  · exact ⟨⟨rfl, .nil⟩, ⟨Hashed.nil, by simp⟩, by simp⟩

/-! What a free reports. -/

structure Classified (a : Allocator) (l : Ledger) (ptr : Nat) : Prop where
  null : ptr = 0 → freeImpl a ptr = some (.ok a)
  accepted : ptr ≠ 0 →
    ((∃ next, freeImpl a ptr = some (.ok next)) ↔ ∃ block ∈ l.live, block.ptr = ptr)
  doubleFree : freeImpl a ptr = some (.error .R4010) ↔ ∃ block ∈ l.freed, block.ptr = ptr
  interior : freeImpl a ptr = some (.error .R4011) ↔
    ∃ block ∈ l.live ++ l.freed, block.Inside ptr
  unmanaged : freeImpl a ptr = some (.error .R4003) ↔ ptr ≠ 0 ∧
    ∀ block ∈ l.live ++ l.freed, block.ptr ≠ ptr ∧ ¬ block.Inside ptr

theorem Agree.error {outcome : Outcome Allocator} {fault : Fault}
    (hagree : Agree outcome (.error fault)) : outcome = some (.error fault) := by
  cases outcome with
  | none => exact hagree.elim
  | some result =>
      cases result with
      | ok a => exact hagree.elim
      | error fault' => rw [show fault' = fault from hagree]

theorem Agree.ok {outcome : Outcome Allocator} {l : Ledger} (hagree : Agree outcome (.ok l)) :
    ∃ a, outcome = some (.ok a) ∧ a.Keeps l := by
  cases outcome with
  | none => exact hagree.elim
  | some result =>
      cases result with
      | ok a => exact ⟨a, rfl, hagree⟩
      | error fault => exact hagree.elim

theorem findStart_eq_none {blocks : List Allocation} {target : Nat} :
    findStart blocks target = none ↔ ∀ block ∈ blocks, block.ptr ≠ target := by
  simp [findStart]

section Classify

variable {a : Allocator} {l : Ledger}

/-- A block that starts at the pointer is the only one it has to do with. -/
theorem Ledger.Sound.start_excludes (hsound : l.Sound) {block : Allocation}
    (hmem : block ∈ l.live ++ l.freed) :
    (block ∈ l.live → ¬ ∃ other ∈ l.freed, other.ptr = block.ptr) ∧
      (block ∈ l.freed → ¬ ∃ other ∈ l.live, other.ptr = block.ptr) ∧
      ¬ ∃ other ∈ l.live ++ l.freed, other.Inside block.ptr := by
  refine ⟨?_, ?_, ?_⟩
  · rintro hlive ⟨other, hother, hptr⟩
    have hsame := hsound.start_unique (List.mem_append_right _ hother) hmem hptr
    exact hsound.disjoint (record_mem hlive) (record_mem (hsame ▸ hother))
  · rintro hfreed ⟨other, hother, hptr⟩
    have hsame := hsound.start_unique (List.mem_append_left _ hother) hmem hptr
    exact hsound.disjoint (record_mem (hsame ▸ hother)) (record_mem hfreed)
  · rintro ⟨other, hother, hinside⟩
    exact hsound.not_inside hother hmem hinside

theorem Allocator.Keeps.classified (hkeeps : a.Keeps l) (hsound : l.Sound) (ptr : Nat) :
    Classified a l ptr := by
  have hagree := hkeeps.free hsound ptr
  have hpositive : ∀ block ∈ l.live ++ l.freed, block.ptr ≠ 0 := by
    intro block hmem
    have hsize := (hsound.sizes block hmem).2
    simp only [memoryPrefixSize] at hsize
    omega
  cases Decidable.em (ptr = 0) with
  | inl hnull =>
      subst hnull
      have hfree : freeImpl a 0 = some (.ok a) := by simp [freeImpl]
      have hnone : ¬ ∃ block ∈ l.freed, block.ptr = 0 := by
        rintro ⟨block, hmem, hptr⟩
        exact hpositive block (List.mem_append_right _ hmem) hptr
      have houtside : ¬ ∃ block ∈ l.live ++ l.freed, block.Inside 0 := by
        rintro ⟨block, -, hinside⟩
        exact Nat.not_lt_zero _ hinside.1
      exact ⟨fun _ => hfree, fun hne => absurd rfl hne, by simpa [hfree] using hnone,
        by rw [hfree]; simpa using houtside, by simp [hfree]⟩
  | inr hnull =>
      rw [Ledger.free, if_neg hnull] at hagree
      cases hlive : findStart l.live ptr with
      | some block =>
          obtain ⟨hmem, rfl⟩ := findStart_eq_some hlive
          have hall := List.mem_append_left l.freed hmem
          obtain ⟨hfreed, -, houtside⟩ := hsound.start_excludes hall
          rw [hlive] at hagree
          obtain ⟨next, hfree, -⟩ := hagree.ok
          refine ⟨fun h => absurd h hnull, fun _ => ⟨fun _ => ⟨block, hmem, rfl⟩,
            fun _ => ⟨next, hfree⟩⟩, ?_, ?_, ?_⟩
          · rw [hfree]
            simpa using hfreed hmem
          · rw [hfree]
            simpa using houtside
          · rw [hfree]
            simp only [Option.some.injEq, reduceCtorEq, false_iff, not_and]
            exact fun _ hother => (hother block hall).1 rfl
      | none =>
          rw [findStart_eq_none] at hlive
          have hnotLive : ¬ ∃ block ∈ l.live, block.ptr = ptr := by
            rintro ⟨block, hmem, hptr⟩
            exact hlive block hmem hptr
          rw [show findStart l.live ptr = none from findStart_eq_none.mpr hlive] at hagree
          cases hfreed : findStart l.freed ptr with
          | some block =>
              obtain ⟨hmem, rfl⟩ := findStart_eq_some hfreed
              have hall := List.mem_append_right l.live hmem
              obtain ⟨-, -, houtside⟩ := hsound.start_excludes hall
              simp only [hfreed, Option.isSome_some, if_true] at hagree
              have hfree := hagree.error
              refine ⟨fun h => absurd h hnull, fun _ => ?_, ?_, ?_, ?_⟩
              · rw [hfree]
                simpa using hnotLive
              · rw [hfree]
                simpa using ⟨block, hmem, rfl⟩
              · rw [hfree]
                simpa using houtside
              · rw [hfree]
                simp only [Option.some.injEq, Except.error.injEq, reduceCtorEq, false_iff, not_and]
                exact fun _ hother => (hother block hall).1 rfl
          | none =>
              have hnone := findStart_eq_none.mp hfreed
              have hnotFreed : ¬ ∃ block ∈ l.freed, block.ptr = ptr := by
                rintro ⟨block, hmem, hptr⟩
                exact hnone block hmem hptr
              have hstarts : ∀ block ∈ l.live ++ l.freed, block.ptr ≠ ptr := by
                intro block hmem
                rcases List.mem_append.mp hmem with hold | hold
                · exact hlive block hold
                · exact hnone block hold
              simp only [hfreed, Option.isSome_none, Bool.false_eq_true, if_false] at hagree
              cases Decidable.em (∃ block ∈ l.live ++ l.freed, block.Inside ptr) with
              | inl hinside =>
                  rw [if_pos hinside] at hagree
                  have hfree := hagree.error
                  refine ⟨fun h => absurd h hnull, fun _ => ?_, ?_, ?_, ?_⟩
                  · rw [hfree]
                    simpa using hnotLive
                  · rw [hfree]
                    simpa using hnotFreed
                  · simp only [hfree, true_iff]
                    exact hinside
                  · rw [hfree]
                    simp only [Option.some.injEq, Except.error.injEq, reduceCtorEq, false_iff,
                      not_and]
                    obtain ⟨block, hmem, hin⟩ := hinside
                    exact fun _ hother => (hother block hmem).2 hin
              | inr houtside =>
                  rw [if_neg houtside] at hagree
                  have hfree := hagree.error
                  refine ⟨fun h => absurd h hnull, fun _ => ?_, ?_, ?_, ?_⟩
                  · rw [hfree]
                    simpa using hnotLive
                  · rw [hfree]
                    simpa using hnotFreed
                  · rw [hfree]
                    simpa using houtside
                  · simp only [hfree, true_iff]
                    exact ⟨hnull, fun block hmem =>
                      ⟨hstarts block hmem, fun hin => houtside ⟨block, hmem, hin⟩⟩⟩

end Classify

/-- Over every run the allocator keeps the ledger of its blocks: lists, tables and counters
agree with it, a run ends in a fault exactly as the ledger says, and every free is classified
by the ledger. -/
theorem allocator_keeps_ledger (ops : List Op) (hfits : Ledger.RunFits ⟨[], []⟩ ops) :
    (∀ fault, Ledger.run ⟨[], []⟩ ops = .error fault →
      Allocator.init.run ops = some (.error fault)) ∧
    ∀ l, Ledger.run ⟨[], []⟩ ops = .ok l →
      ∃ a, Allocator.init.run ops = some (.ok a) ∧ a.Keeps l ∧ l.Sound ∧
        ∀ ptr, Classified a l ptr := by
  obtain ⟨hagree, hlast⟩ := run_agrees ops _ _ init_keeps Ledger.Sound.nil hfits
  constructor
  · intro fault hrun
    rw [hrun] at hagree
    exact hagree.error
  · intro l hrun
    rw [hrun] at hagree
    obtain ⟨a, hrunA, hkeeps⟩ := hagree.ok
    exact ⟨a, hrunA, hkeeps, hlast l hrun, hkeeps.classified (hlast l hrun)⟩

/-- A block is moved by `realloc` and freed; the next block gets its first storage. -/
def movingRun : List Op :=
  [.alloc 8 64 1, .realloc 96 100 4096 0, .calloc 2 4 64 2, .free 4128, .free 0]

theorem allocator_keeps_ledger_moving :
    Ledger.run ⟨[], []⟩ movingRun = .ok ⟨[⟨2, 96, 8⟩], [⟨1, 4128, 100⟩]⟩ ∧
      ∃ a, Allocator.init.run movingRun = some (.ok a) ∧
        a.Keeps ⟨[⟨2, 96, 8⟩], [⟨1, 4128, 100⟩]⟩ := by
  have hrun : Ledger.run ⟨[], []⟩ movingRun = .ok ⟨[⟨2, 96, 8⟩], [⟨1, 4128, 100⟩]⟩ := by
    rfl
  obtain ⟨a, hinit, hkeeps, -⟩ := (allocator_keeps_ledger movingRun (by decide)).2 _ hrun
  exact ⟨hrun, a, hinit, hkeeps⟩

/-- What a run ends with. -/
def ending : Outcome Allocator → Option (Except Fault Nat)
  | none => none
  | some (.error fault) => some (.error fault)
  | some (.ok a) => some (.ok a.liveBytes)

/-- Inside a block in quarantine, with no live block at all, a free is reported as interior;
a request for no bytes counts as one byte; a null pointer is accepted. -/
theorem quarantined_interior :
    (Ledger.RunFits ⟨[], []⟩ [.alloc 8 64 1, .free 96, .free 97] ∧
      Ledger.run ⟨[], []⟩ [.alloc 8 64 1, .free 96] = .ok ⟨[], [⟨1, 96, 8⟩]⟩ ∧
      ending (Allocator.init.run [.alloc 8 64 1, .free 96, .free 97]) = some (.error .R4011)) ∧
    ending (Allocator.init.run [.alloc 0 64 1]) = some (.ok 1) ∧
    ending (Allocator.init.run [.free 0]) = some (.ok 0) := by
  refine ⟨⟨by decide, rfl, ?_⟩, ?_, ?_⟩ <;> rfl

end Memory

end Cnegative
