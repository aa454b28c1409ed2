import Mathlib.Data.List.Perm.Subperm
import Cnegative.Support.Memory

namespace Cnegative

namespace Memory

open Library

/-! What the tables and the lists of records keep. The loops end within one turn more than
there are records. -/

/-- The table holds exactly these records, each in the bucket of its pointer. -/
structure Table.Holds (table : Table) (ptr : RecordId → Nat) (records : List RecordId) :
    Prop where
  hashed : Hashed (fun record => bucketIndexFor table.capacity (ptr record)) table.buckets
    table.bucketNext records
  storage : records ≠ [] → table.capacity ≠ 0

namespace Table.Holds

variable {table : Table} {ptr : RecordId → Nat} {records : List RecordId} {record : RecordId}

theorem frame {bucketNext : RecordId → Option RecordId} {ptr' : RecordId → Nat}
    (hlink : ∀ record ∈ records, bucketNext record = table.bucketNext record)
    (hptr : ∀ record ∈ records, ptr' record = ptr record) (hholds : table.Holds ptr records) :
    Table.Holds { table with bucketNext := bucketNext } ptr' records where
  hashed := hholds.hashed.frame (fun record hmem => by rw [hptr record hmem]) hlink
  storage := hholds.storage

theorem insert (hholds : table.Holds ptr records) (hcapacity : table.capacity ≠ 0)
    (hfresh : record ∉ records) : (table.insertRecord ptr record).Holds ptr (record :: records) where
  hashed := hholds.hashed.insert hfresh
  storage _ := hcapacity

theorem chain_length (hholds : table.Holds ptr records) (bucket : Nat) :
    ∃ chain, Chained table.bucketNext (table.buckets bucket) chain none ∧ chain.Nodup ∧
      (∀ record, record ∈ chain ↔
        record ∈ records ∧ bucketIndexFor table.capacity (ptr record) = bucket) ∧
      chain.length ≤ records.length := by
  obtain ⟨chain, hchain, hnodup, hmem⟩ := hholds.hashed bucket
  have hsubset : chain ⊆ records := fun record hrecord => ((hmem record).mp hrecord).1
  exact ⟨chain, hchain, hnodup, hmem, (List.subperm_of_subset hnodup hsubset).length_le⟩

end Table.Holds

theorem insertRecord_bucketNext (table : Table) (ptr : RecordId → Nat) {record other : RecordId}
    (hne : other ≠ record) :
    (table.insertRecord ptr record).bucketNext other = table.bucketNext other :=
  setField_other hne

/-! Rehashing. -/

theorem le_bucketCapacityFrom (requiredBlocks turns capacity : Nat) :
    capacity ≤ bucketCapacityFrom requiredBlocks turns capacity := by
  induction turns generalizing capacity with
  | zero => exact Nat.le_refl _
  | succ turns ih =>
      unfold bucketCapacityFrom
      split
      · exact Nat.le_trans (by omega) (ih (capacity * 2))
      · exact Nat.le_refl _

theorem bucketCapacityFor_ne_zero (requiredBlocks : Nat) : bucketCapacityFor requiredBlocks ≠ 0 := by
  have hle := le_bucketCapacityFrom requiredBlocks (requiredBlocks * 2) 16
  unfold bucketCapacityFor
  omega

theorem rehashFrom_holds (ptr : RecordId → Nat) {next : RecordId → Option RecordId}
    (cells : List RecordId) :
    ∀ (turns : Nat) (start : Option RecordId) (done : List RecordId) (table : Table),
      Chained next start cells none → cells.length < turns → (cells ++ done).Nodup →
      table.Holds ptr done → table.capacity ≠ 0 →
      ∃ rehashed, rehashFrom ptr next turns start table = some rehashed ∧
        rehashed.capacity = table.capacity ∧
        (∀ records : List RecordId, (∀ record, record ∈ records ↔ record ∈ cells ++ done) →
          rehashed.Holds ptr records) ∧
        ∀ other, other ∉ cells → rehashed.bucketNext other = table.bucketNext other := by
  induction cells with
  | nil =>
      intro turns start done table hchain hturns _ hholds hcapacity
      obtain ⟨turns, rfl⟩ := Nat.exists_eq_add_of_lt hturns
      simp only [Chained] at hchain
      subst hchain
      refine ⟨table, by simp [rehashFrom], rfl, fun records hrecords => ?_, fun _ _ => rfl⟩
      exact ⟨hholds.hashed.of_mem_iff (by simpa using hrecords), fun _ => hcapacity⟩
  | cons cell rest ih =>
      intro turns start done table hchain hturns hnodup hholds hcapacity
      obtain ⟨turns, rfl⟩ := Nat.exists_eq_add_of_lt hturns
      obtain ⟨rfl, hrest⟩ := hchain
      have hmoved : (rest ++ cell :: done).Nodup := List.nodup_middle.mpr hnodup
      have hfresh : cell ∉ done := fun hmem =>
        (List.nodup_cons.mp hnodup).1 (List.mem_append_right _ hmem)
      obtain ⟨rehashed, hrun, hsame, hall, hother⟩ := ih (rest.length + 1 + turns) (next cell)
        (cell :: done) _ hrest (by omega) hmoved (hholds.insert hcapacity hfresh) hcapacity
      refine ⟨rehashed, ?_, hsame, fun records hrecords => hall records fun record => ?_,
        fun other hout => ?_⟩
      · rw [show (cell :: rest).length + turns + 1 = rest.length + 1 + turns + 1 by simp]
        exact hrun
      · rw [hrecords]
        simp only [List.cons_append, List.mem_cons, List.mem_append]
        tauto
      · rw [List.mem_cons, not_or] at hout
        rw [hother other hout.2, insertRecord_bucketNext _ _ hout.1]

theorem rehashRecords_holds {ptr : RecordId → Nat} {next : RecordId → Option RecordId}
    {table : Table} {records : List RecordId} {start : Option RecordId} {requiredBlocks : Nat}
    (hchain : Chained next start records none) (hnodup : records.Nodup)
    (hholds : table.Holds ptr records) (hrequired : requiredBlocks ≠ 0) :
    ∃ rehashed, rehashRecords ptr next (records.length + 1) start table requiredBlocks =
        some rehashed ∧ rehashed.capacity ≠ 0 ∧ rehashed.Holds ptr records ∧
      ∀ other, other ∉ records → rehashed.bucketNext other = table.bucketNext other := by
  unfold rehashRecords
  rw [if_neg hrequired]
  split
  · rename_i hlarge
    exact ⟨table, rfl, hlarge.2, hholds, fun _ _ => rfl⟩
  · have hempty : Table.Holds { table with
        buckets := fun _ => none
        capacity := bucketCapacityFor requiredBlocks } ptr [] :=
      ⟨Hashed.nil, by simp⟩
    obtain ⟨rehashed, hrun, hsame, hall, hother⟩ := rehashFrom_holds ptr records
      (records.length + 1) start [] _ hchain (Nat.lt_succ_self _) (by simpa using hnodup) hempty
      (bucketCapacityFor_ne_zero requiredBlocks)
    exact ⟨rehashed, hrun, by rw [hsame]; exact bucketCapacityFor_ne_zero requiredBlocks,
      hall records (by simp), hother⟩

/-! Searching. -/

theorem findInChain_eq (ptr : RecordId → Nat) {bucketNext : RecordId → Option RecordId}
    (target : Nat) (chain : List RecordId) :
    ∀ (turns : Nat) (start : Option RecordId), Chained bucketNext start chain none →
      chain.length < turns →
      findInChain ptr bucketNext target turns start =
        some (chain.find? fun record => ptr record == target) := by
  induction chain with
  | nil =>
      intro turns start hchain hturns
      obtain ⟨turns, rfl⟩ := Nat.exists_eq_add_of_lt hturns
      simp only [Chained] at hchain
      subst hchain
      simp [findInChain]
  | cons record rest ih =>
      intro turns start hchain hturns
      obtain ⟨turns, rfl⟩ := Nat.exists_eq_add_of_lt hturns
      obtain ⟨rfl, hrest⟩ := hchain
      rw [List.find?_cons]
      unfold findInChain
      cases Decidable.em (ptr record = target) with
      | inl hfound => simp [hfound]
      | inr hother =>
          simp only [hother, if_false, beq_eq_false_iff_ne.mpr hother]
          exact ih _ _ hrest (by simp only [List.length_cons]; omega)

theorem find_of_subset {accept : RecordId → Bool} {chain records : List RecordId}
    (hsubset : chain ⊆ records) (hmem : ∀ record ∈ records, accept record = true → record ∈ chain)
    (hone : ∀ record ∈ records, ∀ other ∈ records, accept record = true → accept other = true →
      record = other) : chain.find? accept = records.find? accept := by
  cases hfind : records.find? accept with
  | none =>
      rw [List.find?_eq_none] at hfind ⊢
      exact fun record hrecord => hfind record (hsubset hrecord)
  | some record =>
      have hrecord := List.mem_of_find?_eq_some hfind
      have haccept := List.find?_some hfind
      cases hchain : chain.find? accept with
      | none => exact absurd haccept (List.find?_eq_none.mp hchain _ (hmem _ hrecord haccept))
      | some other =>
          rw [hone other (hsubset (List.mem_of_find?_eq_some hchain)) record hrecord
            (List.find?_some hchain) haccept]

theorem findRecordInBuckets_eq {table : Table} {ptr : RecordId → Nat} {records : List RecordId}
    (hholds : table.Holds ptr records)
    (hone : ∀ record ∈ records, ∀ other ∈ records, ptr record = ptr other → record = other)
    (target : Nat) :
    findRecordInBuckets ptr (records.length + 1) table target =
      some (records.find? fun record => ptr record == target) := by
  unfold findRecordInBuckets
  split
  · rename_i hcapacity
    have hempty : records = [] := by
      cases hrecords : records with
      | nil => rfl
      | cons record rest => exact absurd hcapacity (hholds.storage (by simp [hrecords]))
    simp [hempty]
  · obtain ⟨chain, hchain, -, hmem, hlength⟩ :=
      hholds.chain_length (bucketIndexFor table.capacity target)
    rw [findInChain_eq ptr target chain _ _ hchain (by omega), find_of_subset]
    · exact fun record hrecord => ((hmem record).mp hrecord).1
    · intro record hrecord hfound
      exact (hmem record).mpr ⟨hrecord, by rw [beq_iff_eq.mp hfound]⟩
    · intro record hrecord other hother hfound hotherFound
      exact hone record hrecord other hother
        ((beq_iff_eq.mp hfound).trans (beq_iff_eq.mp hotherFound).symm)

theorem findContainingRecordInList_eq (ptr size : RecordId → Nat)
    {next : RecordId → Option RecordId} (target : Nat) (records : List RecordId) :
    ∀ (turns : Nat) (start : Option RecordId), Chained next start records none →
      records.length < turns →
      findContainingRecordInList ptr size next target turns start = some (records.find?
        fun record => decide (ptr record < target ∧ target < ptr record + size record)) := by
  induction records with
  | nil =>
      intro turns start hchain hturns
      obtain ⟨turns, rfl⟩ := Nat.exists_eq_add_of_lt hturns
      simp only [Chained] at hchain
      subst hchain
      simp [findContainingRecordInList]
  | cons record rest ih =>
      intro turns start hchain hturns
      obtain ⟨turns, rfl⟩ := Nat.exists_eq_add_of_lt hturns
      obtain ⟨rfl, hrest⟩ := hchain
      rw [List.find?_cons]
      unfold findContainingRecordInList
      cases Decidable.em (ptr record < target ∧ target < ptr record + size record) with
      | inl hinside => simp [hinside]
      | inr hother =>
          simp only [hother, if_false, decide_false]
          exact ih _ _ hrest (by simp only [List.length_cons]; omega)

/-! Unlinking from a bucket. -/

/-- The slot behind the records of `front`. -/
def slotBehind (slot : Slot) (front : List RecordId) : Slot :=
  match front.getLast? with
  | none => slot
  | some last => .bucketNext last

theorem removeFromChain_eq {record : RecordId} {table : Table} (front : List RecordId) :
    ∀ (turns : Nat) (slot : Slot) (back : List RecordId),
      Chained table.bucketNext (table.read slot) (front ++ record :: back) none →
      record ∉ front → front.length < turns →
      removeFromChain record table turns slot =
        some { table.write (table.bucketNext record) (slotBehind slot front) with
          bucketNext := setField
            (table.write (table.bucketNext record) (slotBehind slot front)).bucketNext
            record none } := by
  induction front with
  | nil =>
      intro turns slot back hchain _ hturns
      obtain ⟨turns, rfl⟩ := Nat.exists_eq_add_of_lt hturns
      simp [removeFromChain, hchain.1, slotBehind]
  | cons first rest ih =>
      intro turns slot back hchain hout hturns
      obtain ⟨turns, rfl⟩ := Nat.exists_eq_add_of_lt hturns
      rw [List.mem_cons, not_or] at hout
      have hbehind : slotBehind slot (first :: rest) = slotBehind (.bucketNext first) rest := by
        cases rest using List.reverseRecOn with
        | nil => rfl
        | append_singleton others last =>
            simp only [slotBehind]
            rw [← List.cons_append, List.getLast?_concat, List.getLast?_concat]
      unfold removeFromChain
      simp only [hchain.1, if_neg (Ne.symm hout.1), hbehind]
      exact ih _ (.bucketNext first) back hchain.2 hout.2 (by simp only [List.length_cons]; omega)

theorem bucketRemoveRecord_holds {table : Table} {ptr : RecordId → Nat} {records rest : List RecordId}
    {record : RecordId} (hholds : table.Holds ptr records) (hmem : record ∈ records)
    (hrest : ∀ other, other ∈ rest ↔ other ∈ records ∧ other ≠ record) :
    ∃ removed, bucketRemoveRecord (records.length + 1) table record (ptr record) = some removed ∧
      removed.capacity = table.capacity ∧ removed.Holds ptr rest ∧
      ∀ other, other ∉ records → removed.bucketNext other = table.bucketNext other := by
  have hcapacity := hholds.storage (List.ne_nil_of_mem hmem)
  obtain ⟨chain, hchain, hnodup, hchainMem, hlength⟩ :=
    hholds.chain_length (bucketIndexFor table.capacity (ptr record))
  obtain ⟨front, back, rfl⟩ := List.append_of_mem ((hchainMem record).mpr ⟨hmem, rfl⟩)
  have hout : record ∉ front := by
    have hfresh := (List.nodup_cons.mp (List.nodup_middle.mp hnodup)).1
    exact fun hfront => hfresh (List.mem_append_left _ hfront)
  have hturns : front.length < records.length + 1 := by
    simp only [List.length_append, List.length_cons] at hlength
    omega
  have hrun := removeFromChain_eq front _
    (.bucket (bucketIndexFor table.capacity (ptr record))) back hchain hout hturns
  have hhashed := hholds.hashed.remove hchain hnodup hchainMem hrest
  unfold bucketRemoveRecord
  rw [if_neg hcapacity, hrun]
  refine ⟨_, rfl, ?_, ⟨?_, fun _ => ?_⟩, fun other hother => ?_⟩
  · cases front using List.reverseRecOn <;> simp [slotBehind, Table.write]
  · cases front using List.reverseRecOn with
    | nil => simpa [slotBehind, Table.write, Hashed.unlinked] using hhashed
    | append_singleton others last => simpa [slotBehind, Table.write, Hashed.unlinked] using hhashed
  · cases front using List.reverseRecOn <;> simpa [slotBehind, Table.write] using hcapacity
  · have hne : other ≠ record := fun heq => hother (heq ▸ hmem)
    cases front using List.reverseRecOn with
    | nil => simp [slotBehind, Table.write, setField_other hne]
    | append_singleton others last =>
        have hlast : other ≠ last := by
          rintro rfl
          exact hother ((hchainMem other).mp (by simp)).1
        simp [slotBehind, Table.write, setField_other hne, setField_other hlast]

/-! The lists. -/

/-- The list holds the records in this order; the live list has no tail. -/
structure RecordList.Holds (list : RecordList) (records : List RecordId) : Prop where
  links : Doubly list.next list.prev none list.head records none
  nodup : records.Nodup

theorem RecordList.Holds.head_eq {list : RecordList} {records : List RecordId}
    (hholds : list.Holds records) : list.head = records.head? := by
  simpa using hholds.links.start_eq

theorem listInsertHead_holds {list : RecordList} {records : List RecordId} {record : RecordId}
    (hholds : list.Holds records) (hfresh : record ∉ records) :
    (listInsertHead list record).Holds (record :: records) ∧
      (list.tail = records.getLast? →
        (listInsertHead list record).tail = (record :: records).getLast?) ∧
      ∀ other, other ∉ records → other ≠ record →
        (listInsertHead list record).next other = list.next other ∧
        (listInsertHead list record).prev other = list.prev other := by
  have hhead := hholds.head_eq
  have hlinks := hholds.links.cons hfresh hholds.nodup
  have hnodup := List.nodup_cons.mpr ⟨hfresh, hholds.nodup⟩
  cases records with
  | nil =>
      simp only [List.head?_nil] at hhead
      simp only [hhead, setFieldOf_none] at hlinks
      simp only [listInsertHead, hhead]
      refine ⟨⟨hlinks, hnodup⟩, fun _ => rfl, fun other _ hne => ?_⟩
      exact ⟨setField_other hne, setField_other hne⟩
  | cons first rest =>
      simp only [List.head?_cons] at hhead
      simp only [hhead, setFieldOf] at hlinks
      simp only [listInsertHead, hhead]
      refine ⟨⟨hlinks, hnodup⟩, fun htail => ?_, fun other hother hne => ?_⟩
      · rw [htail]
        simp
      · rw [List.mem_cons, not_or] at hother
        exact ⟨setField_other hne, by rw [setField_other hother.1, setField_other hne]⟩

theorem listRemoveRecord_holds {list : RecordList} {front back : List RecordId}
    {record : RecordId} (hholds : list.Holds (front ++ record :: back)) :
    (listRemoveRecord list record).Holds (front ++ back) ∧
      (list.tail = (front ++ record :: back).getLast? →
        (listRemoveRecord list record).tail = (front ++ back).getLast?) ∧
      ∀ other, other ∉ front ++ record :: back →
        (listRemoveRecord list record).next other = list.next other ∧
        (listRemoveRecord list record).prev other = list.prev other := by
  obtain ⟨hfresh, hshort⟩ := List.nodup_cons.mp (List.nodup_middle.mp hholds.nodup)
  obtain ⟨hprev, hnext⟩ := hholds.links.neighbours
  have hlinks := hholds.links.remove hholds.nodup
  rw [List.mem_append, not_or] at hfresh
  have hlast : front.getLast? ≠ some record := fun heq => hfresh.1 (List.mem_of_mem_getLast? heq)
  have hfirst : back.head? ≠ some record := fun heq => hfresh.2 (List.mem_of_mem_head? heq)
  have hshape : listRemoveRecord list record =
      { next := setField (setFieldOf list.next front.getLast? back.head?) record none
        prev := setField (setFieldOf list.prev back.head? front.getLast?) record none
        head := if front.getLast?.isSome then list.head else back.head?
        tail := if back.head?.isSome then list.tail else front.getLast? } := by
    cases hfront : front.getLast? with
    | none =>
        cases hback : back.head? with
        | none => simp [listRemoveRecord, hprev, hnext, hfront, hback]
        | some after => simp [listRemoveRecord, hprev, hnext, hfront, hback, setFieldOf]
    | some before =>
        have hne : record ≠ before := fun heq => hlast (by rw [hfront, heq])
        cases hback : back.head? with
        | none =>
            simp [listRemoveRecord, hprev, hnext, hfront, hback, setFieldOf, setField_other hne]
        | some after =>
            simp [listRemoveRecord, hprev, hnext, hfront, hback, setFieldOf, setField_other hne]
  rw [hshape]
  have hout : record ∉ front ++ back := by
    rw [List.mem_append, not_or]
    exact hfresh
  refine ⟨⟨(hlinks.setNext hout none).setPrev hout none, hshort⟩, fun htail => ?_,
    fun other hother => ?_⟩
  · cases back with
    | nil => simp
    | cons after rest => simp [htail]
  · rw [List.mem_append, List.mem_cons, not_or, not_or] at hother
    dsimp only
    rw [setField_other hother.2.1, setField_other hother.2.1, setFieldOf_other, setFieldOf_other]
    · exact ⟨rfl, rfl⟩
    · exact fun heq => hother.2.2 (List.mem_of_mem_head? heq)
    · exact fun heq => hother.1 (List.mem_of_mem_getLast? heq)

end Memory

end Cnegative
