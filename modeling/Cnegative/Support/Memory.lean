import Mathlib.Tactic
import Cnegative.Library.Hashed

namespace Cnegative

namespace Memory

open Library

/-! The tracking allocator of `memory.c`. A `cn_mem_record *` is the address of the record,
and the fields of all records are kept by field. Guard and poison bytes are left out: only
the users of a block can damage them. -/

abbrev RecordId := Nat

/-- `size_t` has 64 bits. -/
def sizeMax : Nat := 2 ^ 64 - 1

/-- `sizeof(max_align_t)` on x86-64. -/
def memoryPrefixSize : Nat := 32

def memoryTailSize : Nat := 8

def quarantineBlockLimit : Nat := 64

def quarantineByteLimit : Nat := 1024 * 1024

inductive Fault where
  | R4002
  | R4003
  | R4006
  | R4009
  | R4010
  | R4011
  | R4013
  deriving DecidableEq

/-- `none` is a loop that has not ended after as many turns as there are records. -/
abbrev Outcome (β : Type) := Option (Except Fault β)

def sizeMul (left right : Nat) : Option Nat :=
  if left = 0 ∨ right = 0 then some 0
  else if left > sizeMax / right then none
  else some (left * right)

def sizeAdd (left right : Nat) : Option Nat :=
  if left > sizeMax - right then none else some (left + right)

def allocationTotalSize (payloadSize : Nat) : Option Nat :=
  (sizeAdd payloadSize memoryPrefixSize).bind fun prefixed => sizeAdd prefixed memoryTailSize

def ptrHash (ptr : Nat) : Nat :=
  let value := UInt64.ofNat ptr >>> 4
  let value := value ^^^ (value >>> 33)
  let value := value * 0xff51afd7ed558ccd
  let value := value ^^^ (value >>> 33)
  let value := value * 0xc4ceb9fe1a85ec53
  let value := value ^^^ (value >>> 33)
  value.toNat

/-- The capacity at least doubles in each turn, so `2 * requiredBlocks` turns are enough. -/
def bucketCapacityFrom (requiredBlocks : Nat) : Nat → Nat → Nat
  | 0, capacity => capacity
  | turns + 1, capacity =>
      if capacity < requiredBlocks * 2 then bucketCapacityFrom requiredBlocks turns (capacity * 2)
      else capacity

def bucketCapacityFor (requiredBlocks : Nat) : Nat :=
  bucketCapacityFrom requiredBlocks (requiredBlocks * 2) 16

def bucketIndexFor (capacity ptr : Nat) : Nat :=
  ptrHash ptr &&& (capacity - 1)

/-! Hash tables. A table without storage has capacity 0. -/

structure Table where
  buckets : Nat → Option RecordId
  capacity : Nat
  bucketNext : RecordId → Option RecordId

def Table.insertRecord (table : Table) (ptr : RecordId → Nat) (record : RecordId) : Table :=
  let index := bucketIndexFor table.capacity (ptr record)
  { table with
    bucketNext := setField table.bucketNext record (table.buckets index)
    buckets := setField table.buckets index (some record) }

/-- The loop of `cn_rehash_records` over the list from `record` on. -/
def rehashFrom (ptr : RecordId → Nat) (next : RecordId → Option RecordId) :
    Nat → Option RecordId → Table → Option Table
  | 0, _, _ => none
  | _ + 1, none, table => some table
  | turns + 1, some record, table =>
      rehashFrom ptr next turns (next record) (table.insertRecord ptr record)

def rehashRecords (ptr : RecordId → Nat) (next : RecordId → Option RecordId) (turns : Nat)
    (head : Option RecordId) (table : Table) (requiredBlocks : Nat) : Option Table :=
  if requiredBlocks = 0 then some { table with buckets := fun _ => none, capacity := 0 }
  else if requiredBlocks * 2 ≤ table.capacity ∧ table.capacity ≠ 0 then some table
  else
    rehashFrom ptr next turns head
      { table with buckets := fun _ => none, capacity := bucketCapacityFor requiredBlocks }

def findInChain (ptr : RecordId → Nat) (bucketNext : RecordId → Option RecordId) (target : Nat) :
    Nat → Option RecordId → Option (Option RecordId)
  | 0, _ => none
  | _ + 1, none => some none
  | turns + 1, some record =>
      if ptr record = target then some (some record)
      else findInChain ptr bucketNext target turns (bucketNext record)

def findRecordInBuckets (ptr : RecordId → Nat) (turns : Nat) (table : Table) (target : Nat) :
    Option (Option RecordId) :=
  if table.capacity = 0 then some none
  else
    findInChain ptr table.bucketNext target turns
      (table.buckets (bucketIndexFor table.capacity target))

/-- A `cn_mem_record **` in `cn_bucket_remove_record`. -/
inductive Slot where
  | bucket (index : Nat)
  | bucketNext (record : RecordId)

def Table.read (table : Table) : Slot → Option RecordId
  | .bucket index => table.buckets index
  | .bucketNext record => table.bucketNext record

def Table.write (table : Table) (value : Option RecordId) : Slot → Table
  | .bucket index => { table with buckets := setField table.buckets index value }
  | .bucketNext record => { table with bucketNext := setField table.bucketNext record value }

def removeFromChain (record : RecordId) (table : Table) : Nat → Slot → Option Table
  | 0, _ => none
  | turns + 1, slot =>
      match table.read slot with
      | none => some table
      | some found =>
          if found = record then
            let table := table.write (table.bucketNext record) slot
            some { table with bucketNext := setField table.bucketNext record none }
          else removeFromChain record table turns (.bucketNext found)

def bucketRemoveRecord (turns : Nat) (table : Table) (record : RecordId) (ptrForHash : Nat) :
    Option Table :=
  if table.capacity = 0 then some table
  else removeFromChain record table turns (.bucket (bucketIndexFor table.capacity ptrForHash))

/-! Lists of records. -/

structure RecordList where
  next : RecordId → Option RecordId
  prev : RecordId → Option RecordId
  head : Option RecordId
  tail : Option RecordId

def listInsertHead (list : RecordList) (record : RecordId) : RecordList :=
  let prev := setField list.prev record none
  let next := setField list.next record list.head
  match list.head with
  | some first => ⟨next, setField prev first (some record), some record, list.tail⟩
  | none => ⟨next, prev, some record, some record⟩

def listRemoveRecord (list : RecordList) (record : RecordId) : RecordList :=
  let ahead : RecordList :=
    match list.prev record with
    | some before => { list with next := setField list.next before (list.next record) }
    | none => { list with head := list.next record }
  let behind : RecordList :=
    match ahead.next record with
    | some after => { ahead with prev := setField ahead.prev after (ahead.prev record) }
    | none => { ahead with tail := ahead.prev record }
  { behind with
    prev := setField behind.prev record none
    next := setField behind.next record none }

def findContainingRecordInList (ptr size : RecordId → Nat) (next : RecordId → Option RecordId)
    (target : Nat) : Nat → Option RecordId → Option (Option RecordId)
  | 0, _ => none
  | _ + 1, none => some none
  | turns + 1, some record =>
      if ptr record < target ∧ target < ptr record + size record then some (some record)
      else findContainingRecordInList ptr size next target turns (next record)

/-! The allocator. -/

structure Allocator where
  basePtr : RecordId → Nat
  ptr : RecordId → Nat
  size : RecordId → Nat
  prev : RecordId → Option RecordId
  next : RecordId → Option RecordId
  bucketNext : RecordId → Option RecordId
  head : Option RecordId
  freedHead : Option RecordId
  freedTail : Option RecordId
  buckets : Nat → Option RecordId
  freedBuckets : Nat → Option RecordId
  bucketCapacity : Nat
  freedBucketCapacity : Nat
  liveBlocks : Nat
  liveBytes : Nat
  peakBytes : Nat
  quarantineBlocks : Nat
  quarantineBytes : Nat

namespace Allocator

/-- `cn_allocator_init`; there are no records yet, so their fields do not matter. -/
def init : Allocator where
  basePtr _ := 0
  ptr _ := 0
  size _ := 0
  prev _ := none
  next _ := none
  bucketNext _ := none
  head := none
  freedHead := none
  freedTail := none
  buckets _ := none
  freedBuckets _ := none
  bucketCapacity := 0
  freedBucketCapacity := 0
  liveBlocks := 0
  liveBytes := 0
  peakBytes := 0
  quarantineBlocks := 0
  quarantineBytes := 0

def active (a : Allocator) : Table :=
  ⟨a.buckets, a.bucketCapacity, a.bucketNext⟩

def withActive (a : Allocator) (table : Table) : Allocator :=
  { a with
    buckets := table.buckets
    bucketCapacity := table.capacity
    bucketNext := table.bucketNext }

def freed (a : Allocator) : Table :=
  ⟨a.freedBuckets, a.freedBucketCapacity, a.bucketNext⟩

def withFreed (a : Allocator) (table : Table) : Allocator :=
  { a with
    freedBuckets := table.buckets
    freedBucketCapacity := table.capacity
    bucketNext := table.bucketNext }

def liveList (a : Allocator) : RecordList :=
  ⟨a.next, a.prev, a.head, none⟩

def withLiveList (a : Allocator) (list : RecordList) : Allocator :=
  { a with next := list.next, prev := list.prev, head := list.head }

def freedList (a : Allocator) : RecordList :=
  ⟨a.next, a.prev, a.freedHead, a.freedTail⟩

def withFreedList (a : Allocator) (list : RecordList) : Allocator :=
  { a with next := list.next, prev := list.prev, freedHead := list.head, freedTail := list.tail }

def find (a : Allocator) (target : Nat) : Option (Option RecordId) :=
  findRecordInBuckets a.ptr (a.liveBlocks + 1) a.active target

def findFreed (a : Allocator) (target : Nat) : Option (Option RecordId) :=
  findRecordInBuckets a.ptr (a.quarantineBlocks + 1) a.freed target

def rehashActive (a : Allocator) (requiredBlocks : Nat) : Option Allocator :=
  (rehashRecords a.ptr a.next (a.liveBlocks + 1) a.head a.active requiredBlocks).map a.withActive

def rehashFreed (a : Allocator) (requiredBlocks : Nat) : Option Allocator :=
  (rehashRecords a.ptr a.next (a.quarantineBlocks + 1) a.freedHead a.freed
    requiredBlocks).map a.withFreed

/-- `cn_record_create`; `record` is what `malloc` returns for it. -/
def recordCreate (a : Allocator) (record : RecordId) (basePtr ptr size : Nat) : Allocator :=
  { a with
    basePtr := setField a.basePtr record basePtr
    ptr := setField a.ptr record ptr
    size := setField a.size record size
    prev := setField a.prev record none
    next := setField a.next record none
    bucketNext := setField a.bucketNext record none }

/-- One turn of `cn_allocator_evict_quarantine`. -/
def evictRecord (a : Allocator) (record : RecordId) : Option Allocator :=
  (bucketRemoveRecord (a.quarantineBlocks + 1) a.freed record (a.ptr record)).map fun table =>
    let a := a.withFreed table
    let a := a.withFreedList (listRemoveRecord a.freedList record)
    { a with
      quarantineBlocks := a.quarantineBlocks - 1
      quarantineBytes := a.quarantineBytes - a.size record }

def evictQuarantine : Nat → Allocator → Option Allocator
  | 0, _ => none
  | turns + 1, a =>
      if quarantineBlockLimit < a.quarantineBlocks ∨ quarantineByteLimit < a.quarantineBytes then
        match a.freedTail with
        | none => some a
        | some record => (a.evictRecord record).bind (evictQuarantine turns)
      else some a

def moveToQuarantine (a : Allocator) (record : RecordId) : Option Allocator :=
  (a.rehashFreed (a.quarantineBlocks + 1)).bind fun a =>
    let a := a.withFreedList (listInsertHead a.freedList record)
    let a := a.withFreed (a.freed.insertRecord a.ptr record)
    let a := { a with
      quarantineBlocks := a.quarantineBlocks + 1
      quarantineBytes := a.quarantineBytes + a.size record }
    evictQuarantine (a.quarantineBlocks + 1) a

end Allocator

/-- `malloc` returns the block `basePtr` and the record `record`. -/
def allocImpl (a : Allocator) (size basePtr : Nat) (record : RecordId) : Outcome Allocator :=
  let actualSize := if size = 0 then 1 else size
  match allocationTotalSize actualSize with
  | none => some (.error .R4006)
  | some _ =>
      (a.rehashActive (a.liveBlocks + 1)).map fun a =>
        let a := a.recordCreate record basePtr (basePtr + memoryPrefixSize) actualSize
        let a := a.withLiveList (listInsertHead a.liveList record)
        let a := a.withActive (a.active.insertRecord a.ptr record)
        let liveBytes := a.liveBytes + actualSize
        .ok { a with
          liveBlocks := a.liveBlocks + 1
          liveBytes := liveBytes
          peakBytes := max a.peakBytes liveBytes }

def callocImpl (a : Allocator) (count size basePtr : Nat) (record : RecordId) :
    Outcome Allocator :=
  match sizeMul count size with
  | none => some (.error .R4006)
  | some totalSize => allocImpl a totalSize basePtr record

/-- `realloc` returns the block `newBasePtr`. -/
def reallocRecord (a : Allocator) (record : RecordId) (ptr size newBasePtr : Nat) :
    Outcome Allocator :=
  let actualSize := if size = 0 then 1 else size
  match allocationTotalSize actualSize with
  | none => some (.error .R4009)
  | some _ =>
      (bucketRemoveRecord (a.liveBlocks + 1) a.active record ptr).map fun table =>
        let a := a.withActive table
        let liveBytes := a.liveBytes - a.size record + actualSize
        let a := { a with
          liveBytes := liveBytes
          peakBytes := max a.peakBytes liveBytes
          basePtr := setField a.basePtr record newBasePtr
          ptr := setField a.ptr record (newBasePtr + memoryPrefixSize)
          size := setField a.size record actualSize }
        .ok (a.withActive (a.active.insertRecord a.ptr record))

/-- For a null pointer `record` is the record that `cn_alloc_impl` gets. -/
def reallocImpl (a : Allocator) (ptr size newBasePtr : Nat) (record : RecordId) :
    Outcome Allocator :=
  if ptr = 0 then allocImpl a size newBasePtr record
  else
    (a.find ptr).bind fun
      | some known => reallocRecord a known ptr size newBasePtr
      | none =>
          (a.findFreed ptr).map fun
            | some _ => .error .R4013
            | none => .error .R4002

def freeRecord (a : Allocator) (record : RecordId) (ptr : Nat) : Option Allocator :=
  (bucketRemoveRecord (a.liveBlocks + 1) a.active record ptr).bind fun table =>
    let a := a.withActive table
    let a := a.withLiveList (listRemoveRecord a.liveList record)
    let a := { a with
      liveBlocks := a.liveBlocks - 1
      liveBytes := a.liveBytes - a.size record }
    a.moveToQuarantine record

def freeImpl (a : Allocator) (ptr : Nat) : Outcome Allocator :=
  if ptr = 0 then some (.ok a)
  else
    (a.find ptr).bind fun
      | some record => (freeRecord a record ptr).map .ok
      | none =>
          (a.findFreed ptr).bind fun
            | some _ => some (.error .R4010)
            | none =>
                (findContainingRecordInList a.ptr a.size a.next ptr (a.liveBlocks + 1)
                  a.head).bind fun
                  | some _ => some (.error .R4011)
                  | none =>
                      (findContainingRecordInList a.ptr a.size a.next ptr
                        (a.quarantineBlocks + 1) a.freedHead).map fun
                        | some _ => .error .R4011
                        | none => .error .R4003

/-! Runs. Every operation carries what `malloc` or `realloc` returns to it. -/

inductive Op where
  | alloc (size basePtr : Nat) (record : RecordId)
  | calloc (count size basePtr : Nat) (record : RecordId)
  | realloc (ptr size newBasePtr : Nat) (record : RecordId)
  | free (ptr : Nat)
  deriving DecidableEq

def Allocator.step (a : Allocator) : Op → Outcome Allocator
  | .alloc size basePtr record => allocImpl a size basePtr record
  | .calloc count size basePtr record => callocImpl a count size basePtr record
  | .realloc ptr size newBasePtr record => reallocImpl a ptr size newBasePtr record
  | .free ptr => freeImpl a ptr

def Allocator.run (a : Allocator) : List Op → Outcome Allocator
  | [] => some (.ok a)
  | op :: rest =>
      (a.step op).bind fun
        | .error fault => some (.error fault)
        | .ok next => next.run rest

end Memory

end Cnegative
