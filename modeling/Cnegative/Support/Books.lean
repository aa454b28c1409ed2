import Cnegative.Support.Ledger

namespace Cnegative

namespace Memory

open Library

/-! The allocator keeps the ledger: its lists and its tables hold the records of the blocks,
and its counters agree with them. -/

def Allocator.Describes (a : Allocator) (block : Allocation) : Prop :=
  a.ptr block.record = block.ptr ∧ a.size block.record = block.size ∧
    a.basePtr block.record + memoryPrefixSize = block.ptr

def recordsOf (blocks : List Allocation) : List RecordId :=
  blocks.map Allocation.record

structure Allocator.Tracks (a : Allocator) (list : RecordList) (table : Table)
    (blocks : List Allocation) : Prop where
  list : list.Holds (recordsOf blocks)
  table : table.Holds a.ptr (recordsOf blocks)
  describes : ∀ block ∈ blocks, a.Describes block

structure Allocator.Keeps (a : Allocator) (l : Ledger) : Prop where
  live : a.Tracks a.liveList a.active l.live
  freed : a.Tracks a.freedList a.freed l.freed
  freedTail : a.freedTail = (recordsOf l.freed).getLast?
  liveBlocks : a.liveBlocks = l.live.length
  liveBytes : a.liveBytes = totalSize l.live
  quarantineBlocks : a.quarantineBlocks = l.freed.length
  quarantineBytes : a.quarantineBytes = totalSize l.freed

@[simp] theorem recordsOf_nil : recordsOf [] = [] :=
  rfl

@[simp] theorem recordsOf_append (front back : List Allocation) :
    recordsOf (front ++ back) = recordsOf front ++ recordsOf back :=
  List.map_append

@[simp] theorem recordsOf_cons (block : Allocation) (rest : List Allocation) :
    recordsOf (block :: rest) = block.record :: recordsOf rest :=
  rfl

@[simp] theorem length_recordsOf (blocks : List Allocation) :
    (recordsOf blocks).length = blocks.length :=
  List.length_map ..

theorem find?_eq_of_forall {α : Type} {accept accept' : α → Bool} {entries : List α}
    (hsame : ∀ entry ∈ entries, accept entry = accept' entry) :
    entries.find? accept = entries.find? accept' := by
  induction entries with
  | nil => rfl
  | cons entry rest ih =>
      rw [List.find?_cons, List.find?_cons, hsame entry (List.mem_cons_self ..),
        ih fun other hother => hsame other (List.mem_cons_of_mem _ hother)]

theorem record_mem {block : Allocation} {blocks : List Allocation} (hmem : block ∈ blocks) :
    block.record ∈ recordsOf blocks :=
  List.mem_map_of_mem hmem

/-! One side of the books. -/

def Allocator.SameFields (a a' : Allocator) (records : List RecordId) : Prop :=
  ∀ record ∈ records, a'.ptr record = a.ptr record ∧ a'.size record = a.size record ∧
    a'.basePtr record = a.basePtr record

theorem RecordList.Holds.frame {list list' : RecordList} {records : List RecordId}
    (hholds : list.Holds records) (hhead : list'.head = list.head)
    (hlinks : ∀ record ∈ records, list'.next record = list.next record ∧
      list'.prev record = list.prev record) : list'.Holds records where
  links := by
    rw [hhead]
    exact hholds.links.frame (fun record hmem => (hlinks record hmem).1)
      fun record hmem => (hlinks record hmem).2
  nodup := hholds.nodup

theorem Table.Holds.congr {table table' : Table} {ptr ptr' : RecordId → Nat}
    {records : List RecordId} (hholds : table.Holds ptr records)
    (hbuckets : table'.buckets = table.buckets) (hcapacity : table'.capacity = table.capacity)
    (hlinks : ∀ record ∈ records, table'.bucketNext record = table.bucketNext record)
    (hptr : ∀ record ∈ records, ptr' record = ptr record) : table'.Holds ptr' records := by
  obtain ⟨buckets, capacity, bucketNext⟩ := table'
  subst hbuckets hcapacity
  exact hholds.frame hlinks hptr

namespace Allocator.Tracks

variable {a a' : Allocator} {list list' : RecordList} {table table' : Table}
  {blocks front back : List Allocation} {block : Allocation}

theorem describes_of_same (htracks : a.Tracks list table blocks)
    (hfields : a.SameFields a' (recordsOf blocks)) : ∀ block ∈ blocks, a'.Describes block := by
  intro block hmem
  obtain ⟨hptr, hsize, hbase⟩ := hfields _ (record_mem hmem)
  unfold Allocator.Describes
  rw [hptr, hsize, hbase]
  exact htracks.describes block hmem

/-- What touches none of its records leaves a side alone. -/
theorem frame (htracks : a.Tracks list table blocks)
    (hfields : a.SameFields a' (recordsOf blocks)) (hhead : list'.head = list.head)
    (hlist : ∀ record ∈ recordsOf blocks, list'.next record = list.next record ∧
      list'.prev record = list.prev record)
    (hbuckets : table'.buckets = table.buckets) (hcapacity : table'.capacity = table.capacity)
    (htable : ∀ record ∈ recordsOf blocks, table'.bucketNext record = table.bucketNext record) :
    a'.Tracks list' table' blocks where
  list := htracks.list.frame hhead hlist
  table := htracks.table.congr hbuckets hcapacity htable fun record hmem => (hfields record hmem).1
  describes := htracks.describes_of_same hfields

theorem rehash (htracks : a.Tracks list table blocks) {requiredBlocks : Nat}
    (hrequired : requiredBlocks ≠ 0) :
    ∃ rehashed, rehashRecords a.ptr list.next (blocks.length + 1) list.head table
        requiredBlocks = some rehashed ∧ rehashed.capacity ≠ 0 ∧
      a.Tracks list rehashed blocks ∧
      ∀ other, other ∉ recordsOf blocks → rehashed.bucketNext other = table.bucketNext other := by
  obtain ⟨rehashed, hrun, hcapacity, hholds, hother⟩ := rehashRecords_holds
    htracks.list.links.chained htracks.list.nodup htracks.table hrequired
  rw [length_recordsOf] at hrun
  exact ⟨rehashed, hrun, hcapacity, ⟨htracks.list, hholds, htracks.describes⟩, hother⟩

theorem insert (htracks : a.Tracks list table blocks) (hcapacity : table.capacity ≠ 0)
    (hfresh : block.record ∉ recordsOf blocks) (hdescribes : a.Describes block) :
    a.Tracks (listInsertHead list block.record) (table.insertRecord a.ptr block.record)
      (block :: blocks) where
  list := (listInsertHead_holds htracks.list hfresh).1
  table := htracks.table.insert hcapacity hfresh
  describes other hother := by
    rcases List.mem_cons.mp hother with rfl | hold
    · exact hdescribes
    · exact htracks.describes other hold

theorem unlink (htracks : a.Tracks list table (front ++ block :: back)) :
    ∃ removed, bucketRemoveRecord ((front ++ block :: back).length + 1) table block.record
        block.ptr = some removed ∧ removed.capacity = table.capacity ∧
      removed.Holds a.ptr (recordsOf (front ++ back)) ∧
      ∀ other, other ∉ recordsOf (front ++ block :: back) →
        removed.bucketNext other = table.bucketNext other := by
  have hmem : block ∈ front ++ block :: back := by simp
  have hnodup := htracks.list.nodup
  rw [recordsOf_append, recordsOf_cons, List.nodup_middle, List.nodup_cons] at hnodup
  have hrest : ∀ other, other ∈ recordsOf (front ++ back) ↔
      other ∈ recordsOf (front ++ block :: back) ∧ other ≠ block.record := by
    intro other
    have hout : other ∈ recordsOf front ++ recordsOf back → other ≠ block.record := by
      rintro hother rfl
      exact hnodup.1 hother
    simp only [recordsOf_append, recordsOf_cons, List.mem_append, List.mem_cons] at hout ⊢
    tauto
  obtain ⟨removed, hrun, hcapacity, hholds, hother⟩ :=
    bucketRemoveRecord_holds htracks.table (record_mem hmem) hrest
  rw [length_recordsOf, (htracks.describes block hmem).1] at hrun
  exact ⟨removed, hrun, hcapacity, hholds, hother⟩

theorem listRemove (htracks : a.Tracks list table (front ++ block :: back)) {removed : Table}
    (hholds : removed.Holds a.ptr (recordsOf (front ++ back))) :
    a.Tracks (listRemoveRecord list block.record) removed (front ++ back) where
  list := by
    have hlist := htracks.list
    rw [recordsOf_append, recordsOf_cons] at hlist
    rw [recordsOf_append]
    exact (listRemoveRecord_holds hlist).1
  table := hholds
  describes other hother := htracks.describes other (by
    simp only [List.mem_append, List.mem_cons] at hother ⊢
    tauto)

theorem find (htracks : a.Tracks list table blocks)
    (hone : ∀ first ∈ blocks, ∀ second ∈ blocks, first.ptr = second.ptr → first = second)
    (target : Nat) : findRecordInBuckets a.ptr (blocks.length + 1) table target =
      some ((findStart blocks target).map Allocation.record) := by
  have hrecords : ∀ record ∈ recordsOf blocks, ∀ other ∈ recordsOf blocks,
      a.ptr record = a.ptr other → record = other := by
    intro record hrecord other hother hptr
    obtain ⟨first, hfirst, rfl⟩ := List.mem_map.mp hrecord
    obtain ⟨second, hsecond, rfl⟩ := List.mem_map.mp hother
    rw [(htracks.describes first hfirst).1, (htracks.describes second hsecond).1] at hptr
    rw [hone first hfirst second hsecond hptr]
  have hfind := findRecordInBuckets_eq htracks.table hrecords target
  rw [length_recordsOf] at hfind
  rw [hfind, recordsOf, List.find?_map, findStart]
  congr 2
  refine find?_eq_of_forall fun other hother => ?_
  simp [(htracks.describes other hother).1]

theorem findContaining (htracks : a.Tracks list table blocks) (target : Nat) :
    findContainingRecordInList a.ptr a.size list.next target (blocks.length + 1) list.head =
      some ((blocks.find? fun block => decide (block.Inside target)).map Allocation.record) := by
  have hfind := findContainingRecordInList_eq a.ptr a.size target (recordsOf blocks)
    ((recordsOf blocks).length + 1) list.head htracks.list.links.chained (Nat.lt_succ_self _)
  rw [length_recordsOf] at hfind
  rw [hfind, recordsOf, List.find?_map]
  congr 2
  refine find?_eq_of_forall fun other hother => ?_
  obtain ⟨hptr, hsize, -⟩ := htracks.describes other hother
  simp only [Function.comp_apply, decide_eq_decide, hptr, hsize]
  exact Iff.rfl

end Allocator.Tracks

/-! Quarantine. -/

namespace Allocator.Keeps

variable {a : Allocator} {l : Ledger} {live freed : List Allocation} {block : Allocation}

theorem evictRecord (hkeeps : a.Keeps ⟨live, freed ++ [block]⟩)
    (hnodup : (recordsOf (live ++ (freed ++ [block]))).Nodup) :
    ∃ a', a.evictRecord block.record = some a' ∧ a'.Keeps ⟨live, freed⟩ ∧
      a.SameFields a' (recordsOf (live ++ (freed ++ [block]))) := by
  have hfreed : a.Tracks a.freedList a.freed (freed ++ block :: []) := hkeeps.freed
  have hblock : a.Describes block := hfreed.describes block (by simp)
  obtain ⟨removed, hrun, hcapacity, hholds, hother⟩ := hfreed.unlink
  have hlist := hfreed.list
  rw [recordsOf_append, recordsOf_cons] at hlist
  obtain ⟨-, htail, hlinks⟩ := listRemoveRecord_holds hlist
  have hapart : ∀ record ∈ recordsOf live, record ∉ recordsOf (freed ++ [block]) := by
    rw [recordsOf_append] at hnodup
    exact fun record hlive hfreed =>
      (List.nodup_append.mp hnodup).2.2 record hlive record hfreed rfl
  have htracks := hfreed.listRemove hholds
  rw [List.append_nil] at htracks
  have hrun' : bucketRemoveRecord (a.quarantineBlocks + 1) a.freed block.record
      (a.ptr block.record) = some removed := by
    rw [hkeeps.quarantineBlocks, hblock.1]
    exact hrun
  rw [Allocator.evictRecord, hrun', Option.map_some]
  refine ⟨_, rfl, ?_, (fun _ _ => ⟨rfl, rfl, rfl⟩)⟩
  constructor
  · refine hkeeps.live.frame ((fun _ _ => ⟨rfl, rfl, rfl⟩)) rfl (fun record hmem => ?_) rfl rfl
      fun record hmem => hother record (hapart record hmem)
    exact hlinks record (by simpa using hapart record hmem)
  · exact htracks.frame ((fun _ _ => ⟨rfl, rfl, rfl⟩)) rfl (fun _ _ => ⟨rfl, rfl⟩) rfl rfl fun _ _ => rfl
  · have hold : a.freedTail = (recordsOf freed ++ block.record :: recordsOf []).getLast? := by
      rw [hkeeps.freedTail, recordsOf_append, recordsOf_cons]
    have hnew := htail hold
    rw [show recordsOf [] = [] from rfl, List.append_nil] at hnew
    exact hnew
  · exact hkeeps.liveBlocks
  · exact hkeeps.liveBytes
  · change a.quarantineBlocks - 1 = _
    rw [hkeeps.quarantineBlocks]
    simp
  · change a.quarantineBytes - a.size block.record = _
    rw [hkeeps.quarantineBytes, hblock.2.1]
    simp

theorem evictQuarantine (freed : List Allocation) :
    ∀ (turns : Nat) (a : Allocator), a.Keeps ⟨live, freed⟩ →
      (recordsOf (live ++ freed)).Nodup → freed.length < turns →
      ∃ a', Allocator.evictQuarantine turns a = some a' ∧
        a'.Keeps ⟨live, quarantined quarantineBlockLimit quarantineByteLimit freed⟩ := by
  induction freed using List.reverseRecOn with
  | nil =>
      intro turns a hkeeps _ hturns
      obtain ⟨turns, rfl⟩ := Nat.exists_eq_add_of_lt hturns
      have hblocks : a.quarantineBlocks = 0 := hkeeps.quarantineBlocks
      have hbytes : a.quarantineBytes = 0 := hkeeps.quarantineBytes
      refine ⟨a, ?_, hkeeps⟩
      rw [Allocator.evictQuarantine, if_neg (by simp [hblocks, hbytes])]
  | append_singleton front last ih =>
      intro turns a hkeeps hnodup hturns
      obtain ⟨turns, rfl⟩ := Nat.exists_eq_add_of_lt hturns
      have hblocks : a.quarantineBlocks = (front ++ [last]).length := hkeeps.quarantineBlocks
      have hbytes : a.quarantineBytes = totalSize (front ++ [last]) := hkeeps.quarantineBytes
      rw [Allocator.evictQuarantine]
      split
      · rename_i hover
        have htail : a.freedTail = some last.record := by
          rw [hkeeps.freedTail]
          simp
        obtain ⟨a', hevict, hkeeps', -⟩ := hkeeps.evictRecord hnodup
        have hshort : (recordsOf (live ++ front)).Nodup := by
          refine hnodup.sublist ?_
          simp only [recordsOf_append]
          exact (List.Sublist.refl _).append (List.sublist_append_left _ _)
        obtain ⟨last', hrun, hdone⟩ := ih ((front ++ [last]).length + turns) a' hkeeps' hshort
          (by simp only [List.length_append, List.length_singleton]; omega)
        rw [htail]
        dsimp only
        rw [hevict, Option.bind_some]
        refine ⟨last', hrun, ?_⟩
        rw [quarantined_concat]
        · exact hdone
        · rwa [hblocks, hbytes] at hover
      · rename_i hfits
        refine ⟨a, rfl, ?_⟩
        rw [quarantined_of_fits _ _ _ (by omega) (by omega)]
        exact hkeeps

theorem moveToQuarantine (hkeeps : a.Keeps ⟨live, freed⟩) (hblock : a.Describes block)
    (hnodup : (recordsOf (live ++ block :: freed)).Nodup) :
    ∃ a', a.moveToQuarantine block.record = some a' ∧
      a'.Keeps ⟨live, quarantined quarantineBlockLimit quarantineByteLimit (block :: freed)⟩ := by
  have hall := hnodup
  rw [recordsOf_append, recordsOf_cons, List.nodup_middle, List.nodup_cons, List.mem_append,
    not_or] at hall
  obtain ⟨⟨hliveOut, hfreedOut⟩, hold⟩ := hall
  have hapart : ∀ record ∈ recordsOf live, record ∉ recordsOf freed :=
    fun record hlive hfreed => (List.nodup_append.mp hold).2.2 record hlive record hfreed rfl
  have hliveNe : ∀ record ∈ recordsOf live, record ≠ block.record := by
    rintro record hmem rfl
    exact hliveOut hmem
  obtain ⟨rehashed, hrun, hcapacity, htracks, hother⟩ :=
    hkeeps.freed.rehash (Nat.succ_ne_zero a.quarantineBlocks)
  have hrehash : a.rehashFreed (a.quarantineBlocks + 1) = some (a.withFreed rehashed) := by
    rw [Allocator.rehashFreed, hkeeps.quarantineBlocks]
    rw [hkeeps.quarantineBlocks] at hrun
    exact congrArg (Option.map a.withFreed) hrun
  obtain ⟨-, htail, hlinks⟩ := listInsertHead_holds hkeeps.freed.list hfreedOut
  have hinserted := htracks.insert hcapacity hfreedOut hblock
  rw [Allocator.moveToQuarantine, hrehash, Option.bind_some]
  refine evictQuarantine (block :: freed) _ _ ?_ hnodup ?_
  · constructor
    · refine hkeeps.live.frame ((fun _ _ => ⟨rfl, rfl, rfl⟩)) rfl
        (fun record hmem => hlinks record (hapart record hmem) (hliveNe record hmem)) rfl rfl
        fun record hmem => ?_
      exact (insertRecord_bucketNext _ _ (hliveNe record hmem)).trans
        (hother record (hapart record hmem))
    · exact hinserted.frame ((fun _ _ => ⟨rfl, rfl, rfl⟩)) rfl (fun _ _ => ⟨rfl, rfl⟩) rfl rfl fun _ _ => rfl
    · exact htail hkeeps.freedTail
    · exact hkeeps.liveBlocks
    · exact hkeeps.liveBytes
    · exact congrArg (· + 1) hkeeps.quarantineBlocks
    · change a.quarantineBytes + a.size block.record = _
      rw [hkeeps.quarantineBytes, hblock.2.1, Nat.add_comm]
      rfl
  · change freed.length + 1 < a.quarantineBlocks + 1 + 1
    rw [hkeeps.quarantineBlocks]
    exact Nat.lt_succ_self _

end Allocator.Keeps

end Memory

end Cnegative
