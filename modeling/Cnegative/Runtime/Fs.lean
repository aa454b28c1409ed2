import Cnegative.Library.Heap
import Cnegative.Library.Streams
import Cnegative.Runtime.CString

namespace Cnegative

namespace Fs

open Library

/-! The text operations on files. A file has fewer than `2 ^ 63` bytes, so the lengths do not
wrap. -/

variable {π : Type} [DecidableEq π]

abbrev Memory := Library.Heap (Nat → UInt8)

/-- What `malloc` answers: where there is room, and the bytes it leaves to chance. -/
structure Allocator where
  answer : Memory → Nat → Option (Nat × (Nat → UInt8))
  fresh : ∀ memory size address bytes, answer memory size = some (address, bytes) →
    memory.block address = none

def malloc (allocator : Allocator) (size : Nat) (memory : Memory) : Option Nat × Memory :=
  match allocator.answer memory size with
  | none => (none, memory)
  | some (address, bytes) => (some address, memory.give size bytes (some address))

/-- `realloc`; the old block stays when there is no room. -/
def realloc (allocator : Allocator) (ptr size : Nat) (memory : Memory) :
    Option (Option Nat × Memory) := do
  let old ← memory.block ptr
  let freed ← memory.free ptr
  match allocator.answer freed size with
  | none => return (none, memory)
  | some (address, bytes) =>
      let kept := fun i => if i < min old.size size then old.content i else bytes i
      return (some address, freed.give size kept (some address))

/-- A write outside the block has no result. -/
def storeByte (ptr index : Nat) (byte : UInt8) (memory : Memory) : Option Memory := do
  let block ← memory.block ptr
  if index < block.size then
    memory.store ptr (Function.update block.content index byte)
  else none

def stringFrom (content : Nat → UInt8) : Nat → Nat → Option Text
  | 0, _ => none
  | left + 1, index =>
      if content index = 0 then some []
      else (stringFrom content left (index + 1)).map (content index :: ·)

def stringAt (memory : Memory) (ptr : Nat) : Option Text :=
  (memory.block ptr).bind fun block => stringFrom block.content block.size 0

structure World (π : Type) where
  files : Streams π
  memory : Memory

/-- `ensure.capacity` and `grow` of `cn_fs_read_text`: the buffer, and its capacity. -/
def ensureCapacity (allocator : Allocator) (buffer length capacity : Nat) (memory : Memory) :
    Option (Option Nat × Nat × Memory) :=
  if length + 2 ≤ capacity then some (some buffer, capacity, memory)
  else do
    let (resized, memory) ← realloc allocator buffer (capacity * 2) memory
    return (resized, capacity * 2, memory)

/-- `loop` of `cn_fs_read_text`: the last buffer, and the length unless it could not grow; `none`
is also a loop that has not ended after so many turns. -/
def readLoop (allocator : Allocator) (file : Nat) :
    Nat → Nat → Nat → Nat → World π → Option ((Nat × Option Nat) × World π)
  | 0, _, _, _, _ => none
  | turns + 1, buffer, length, capacity, world => do
      let (ch, files) ← world.files.fgetc file
      match ch with
      | none => return ((buffer, some length), ⟨files, world.memory⟩)
      | some byte =>
          let (grown, capacity, memory) ←
            ensureCapacity allocator buffer length capacity world.memory
          match grown with
          | none => return ((buffer, none), ⟨files, memory⟩)
          | some buffer =>
              let memory ← storeByte buffer length byte memory
              readLoop allocator file turns buffer (length + 1) capacity ⟨files, memory⟩

/-- The turns that a loop over the bytes of a file gets. -/
def turnsFor (world : World π) (path : π) : Nat :=
  ((world.files.content path).getD []).length + 1

/-- `cn_fs_read_text` without `cn_track_str` on what it returns, which touches no file and no
byte of the text; `file` and `closed` are the answers of `fopen` and `fclose`. -/
def readText (path : π) (allocator : Allocator) (file : Option Nat) (closed : CloseAnswer)
    (world : World π) : Option (Option Nat × World π) :=
  match world.files.fopen .read path file with
  | (none, files) => some (none, { world with files := files })
  | (some file, files) =>
      match malloc allocator 64 world.memory with
      | (none, memory) => do
          let (_, files) ← files.fclose file closed
          return (none, ⟨files, memory⟩)
      | (some buffer, memory) => do
          let ((buffer, length), world) ←
            readLoop allocator file (turnsFor world path) buffer 0 64 ⟨files, memory⟩
          match length with
          | some length =>
              let memory ← storeByte buffer length 0 world.memory
              let (_, files) ← world.files.fclose file closed
              return (some buffer, ⟨files, memory⟩)
          | none =>
              let memory ← world.memory.free buffer
              let (_, files) ← world.files.fclose file closed
              return (none, ⟨files, memory⟩)

def countLoop (file : Nat) : Nat → Nat → Streams π → Option (Nat × Streams π)
  | 0, _, _ => none
  | turns + 1, count, files => do
      let (ch, files) ← files.fgetc file
      match ch with
      | none => return (count, files)
      | some _ => countLoop file turns (count + 1) files

def fileSize (path : π) (file : Option Nat) (closed : CloseAnswer) (world : World π) :
    Option (Option Nat × World π) :=
  match world.files.fopen .read path file with
  | (none, files) => some (none, { world with files := files })
  | (some file, files) => do
      let (count, files) ← countLoop file (turnsFor world path) 0 files
      let (closedOk, files) ← files.fclose file closed
      return (if closedOk then some count else none, { world with files := files })

/-- `copy.loop` of `cn_fs_copy`; `written` tells whether the byte at an offset is accepted. -/
def copyLoop (src dst : Nat) (written : Nat → Bool) :
    Nat → Nat → Streams π → Option (Bool × Streams π)
  | 0, _, _ => none
  | turns + 1, offset, files => do
      let (ch, files) ← files.fgetc src
      match ch with
      | none => return (true, files)
      | some byte =>
          let (count, files) ← files.fwrite dst [byte] (if written offset then 1 else 0)
          if count = 1 then copyLoop src dst written turns (offset + 1) files
          else return (false, files)

/-- `cn_fs_copy`. -/
def copy (fromPath toPath : π) (src dst : Option Nat) (written : Nat → Bool)
    (closeDst closeSrc : CloseAnswer) (world : World π) : Option (Bool × World π) :=
  match world.files.fopen .read fromPath src with
  | (none, files) => some (false, { world with files := files })
  | (some src, files) =>
      match files.fopen .write toPath dst with
      | (none, files) => do
          let (_, files) ← files.fclose src closeSrc
          return (false, { world with files := files })
      | (some dst, files) => do
          let (finished, files) ← copyLoop src dst written (turnsFor world fromPath) 0 files
          let (dstOk, files) ← files.fclose dst closeDst
          let (srcOk, files) ← files.fclose src closeSrc
          return (finished && (dstOk && srcOk), { world with files := files })

/-- `cn_fs_write_text` and `cn_fs_append_text`, which differ in the mode. -/
def putText (mode : OpenMode) (path : π) (data : CString) (file : Option Nat) (accepted : Nat)
    (closed : CloseAnswer) (world : World π) : Option (Bool × World π) :=
  match world.files.fopen mode path file with
  | (none, files) => some (false, { world with files := files })
  | (some file, files) => do
      let length := data.strlen
      let (written, files) ← files.fwrite file (data.bytes.take length) accepted
      let (closedOk, files) ← files.fclose file closed
      return (decide (written = length) && closedOk, { world with files := files })

def writeText (path : π) (data : CString) (file : Option Nat) (accepted : Nat)
    (closed : CloseAnswer) (world : World π) : Option (Bool × World π) :=
  putText .write path data file accepted closed world

def appendText (path : π) (data : CString) (file : Option Nat) (accepted : Nat)
    (closed : CloseAnswer) (world : World π) : Option (Bool × World π) :=
  putText .append path data file accepted closed world

/-! One call, with the answers of the system. -/

inductive Call (π : Type) where
  | readText (path : π) (allocator : Allocator) (file : Option Nat) (closed : CloseAnswer)
  | fileSize (path : π) (file : Option Nat) (closed : CloseAnswer)
  | copy (fromPath toPath : π) (src dst : Option Nat) (written : Nat → Bool)
      (closeDst closeSrc : CloseAnswer)
  | writeText (path : π) (data : CString) (file : Option Nat) (accepted : Nat)
      (closed : CloseAnswer)
  | appendText (path : π) (data : CString) (file : Option Nat) (accepted : Nat)
      (closed : CloseAnswer)

inductive Result where
  | text (ptr : Option Nat)
  | size (count : Option Nat)
  | done (ok : Bool)

def step (world : World π) : Call π → Option (Result × World π)
  | .readText path allocator file closed =>
      (readText path allocator file closed world).map fun (ptr, world) => (.text ptr, world)
  | .fileSize path file closed =>
      (fileSize path file closed world).map fun (count, world) => (.size count, world)
  | .copy fromPath toPath src dst written closeDst closeSrc =>
      (copy fromPath toPath src dst written closeDst closeSrc world).map fun (ok, world) =>
        (.done ok, world)
  | .writeText path data file accepted closed =>
      (writeText path data file accepted closed world).map fun (ok, world) => (.done ok, world)
  | .appendText path data file accepted closed =>
      (appendText path data file accepted closed world).map fun (ok, world) => (.done ok, world)

/-- `fopen` answers a stream that is not open. -/
def Lawful (files : Streams π) : Call π → Prop
  | .readText _ _ file _ | .fileSize _ file _ | .writeText _ _ file _ _
  | .appendText _ _ file _ _ => ∀ handle, file = some handle → files.stream handle = none
  | .copy _ _ src dst _ _ _ => (∀ handle, src = some handle → files.stream handle = none) ∧
      ∀ handle, dst = some handle → files.stream handle = none ∧ src ≠ some handle

/-- The file that a call may change. -/
def Call.target : Call π → Option π
  | .readText .. | .fileSize .. => none
  | .copy _ toPath _ _ _ _ _ => some toPath
  | .writeText path _ _ _ _ | .appendText path _ _ _ _ => some path

/-- What the call says about the contents when its result is ok. -/
def Meets (before after : World π) : Call π → Result → Prop
  | .readText path _ _ _, .text (some ptr) => ∃ bytes, before.files.content path = some bytes ∧
      ((∀ byte ∈ bytes, byte ≠ 0) → stringAt after.memory ptr = some bytes)
  | .fileSize path _ _, .size (some count) => ∃ bytes,
      before.files.content path = some bytes ∧ count = bytes.length
  | .copy fromPath toPath _ _ _ _ _, .done true =>
      after.files.content toPath = before.files.content fromPath
  | .writeText path data _ _ _, .done true => after.files.content path = some data.bytes
  | .appendText path data _ _ _, .done true => after.files.content path =
      some ((before.files.content path).getD [] ++ data.bytes)
  | _, _ => True

/-- The block of a text that was read is the only one that is new. -/
def Frees (before after : Memory) : Result → Prop
  | .text (some ptr) => before.block ptr = none ∧
      ∃ block, after.block = Function.update before.block ptr (some block)
  | _ => after.block = before.block

/-- Only the target has changed, and each stream that was opened was closed once. -/
structure Settled (before after : Streams π) (target : Option π) : Prop where
  others : ∀ path, target ≠ some path → after.content path = before.content path
  stream : after.stream = before.stream
  closed : ∃ opened closed, after.opened = before.opened ++ opened ∧
    after.closed = before.closed ++ closed ∧ closed.Perm opened

structure Keeps (before : World π) (call : Call π) (result : Result) (after : World π) : Prop where
  meets : Meets before after call result
  settled : Settled before.files after.files call.target
  frees : Frees before.memory after.memory result

/-- A copy of a file onto itself that is not empty, when no part of it fails. -/
def Clobbers (files : Streams π) : Call π → Prop
  | .copy fromPath toPath src dst _ closeDst closeSrc => fromPath = toPath ∧
      (∃ byte rest, files.content fromPath = some (byte :: rest)) ∧ src.isSome ∧ dst.isSome ∧
      closeDst = .done ∧ closeSrc = .done
  | _ => False

/-! The buffer of a text that is read. -/

/-- Beside the blocks of `base` there is the buffer, which starts with the bytes. -/
structure Buffers (base memory : Memory) (buffer capacity : Nat) (bytes : Text) : Prop where
  fresh : base.block buffer = none
  room : bytes.length < capacity
  block : ∃ content, memory.block = Function.update base.block buffer (some ⟨capacity, content⟩) ∧
    ∀ index byte, bytes[index]? = some byte → content index = byte

section

variable {base memory : Memory} {buffer capacity : Nat} {bytes : Text}

theorem storeByte_spec {ptr index : Nat} {block : HeapBlock (Nat → UInt8)}
    (hblock : memory.block ptr = some block) (hlt : index < block.size) (byte : UInt8) :
    ∃ after, storeByte ptr index byte memory = some after ∧ after.block =
      Function.update memory.block ptr
        (some ⟨block.size, Function.update block.content index byte⟩) := by
  obtain ⟨after, hstore, hafter, -⟩ :=
    Heap.store_spec hblock (Function.update block.content index byte)
  have hbyte : storeByte ptr index byte memory =
      memory.store ptr (Function.update block.content index byte) := by
    rw [storeByte, hblock, Option.bind_eq_bind, Option.bind_some, if_pos hlt]
  exact ⟨after, hbyte.trans hstore, hafter⟩

theorem malloc_spec (allocator : Allocator) (size : Nat) (memory : Memory) :
    malloc allocator size memory = (none, memory) ∨
      ∃ address bytes after, malloc allocator size memory = (some address, after) ∧
        memory.block address = none ∧
        after.block = Function.update memory.block address (some ⟨size, bytes⟩) := by
  rw [malloc]
  cases hanswer : allocator.answer memory size with
  | none => exact .inl rfl
  | some answer =>
      obtain ⟨address, bytes⟩ := answer
      exact .inr ⟨address, bytes, _, rfl, allocator.fresh memory size address bytes hanswer, rfl⟩

theorem Buffers.live (hbuffers : Buffers base memory buffer capacity bytes) :
    ∃ content, memory.block buffer = some ⟨capacity, content⟩ := by
  obtain ⟨content, hblock, -⟩ := hbuffers.block
  exact ⟨content, by rw [hblock, Function.update_self]⟩

theorem Buffers.free (hbuffers : Buffers base memory buffer capacity bytes) :
    ∃ after, memory.free buffer = some after ∧ after.block = base.block := by
  obtain ⟨content, hblock, -⟩ := hbuffers.block
  obtain ⟨held, hlive⟩ := hbuffers.live
  obtain ⟨after, hfree, hafter, -⟩ := Heap.free_spec hlive
  refine ⟨after, hfree, ?_⟩
  rw [hafter, hblock, Function.update_idem, ← hbuffers.fresh, Function.update_eq_self]

theorem Buffers.realloc (hbuffers : Buffers base memory buffer capacity bytes)
    (allocator : Allocator) {size : Nat} (hsize : capacity ≤ size) :
    realloc allocator buffer size memory = some (none, memory) ∨
      ∃ address after, realloc allocator buffer size memory = some (some address, after) ∧
        Buffers base after address size bytes := by
  obtain ⟨content, hblock, hbytes⟩ := hbuffers.block
  obtain ⟨freed, hfree, hfreed⟩ := hbuffers.free
  have hlive : memory.block buffer = some ⟨capacity, content⟩ := by
    rw [hblock, Function.update_self]
  rw [Fs.realloc, hlive, Option.bind_eq_bind, Option.bind_some, hfree, Option.bind_eq_bind,
    Option.bind_some]
  cases hanswer : allocator.answer freed size with
  | none => exact .inl rfl
  | some answer =>
      obtain ⟨address, garbage⟩ := answer
      have hfresh := allocator.fresh freed size address garbage hanswer
      refine .inr ⟨address, _, rfl, hfreed ▸ hfresh, hbuffers.room.trans_le hsize,
        fun i => if i < min capacity size then content i else garbage i, ?_,
        fun index byte hbyte => ?_⟩
      · rw [← hfreed]
        rfl
      · have hindex := (List.getElem?_eq_some_iff.mp hbyte).1
        have hroom := hbuffers.room
        dsimp only
        rw [if_pos (show index < min capacity size by omega)]
        exact hbytes index byte hbyte

theorem Buffers.ensure (hbuffers : Buffers base memory buffer capacity bytes)
    (allocator : Allocator) :
    ∃ grown capacity' after,
      ensureCapacity allocator buffer bytes.length capacity memory =
        some (grown, capacity', after) ∧
      (grown = none → Buffers base after buffer capacity bytes) ∧
      ∀ buffer', grown = some buffer' →
        Buffers base after buffer' capacity' bytes ∧ bytes.length + 2 ≤ capacity' := by
  rw [ensureCapacity]
  by_cases hroom : bytes.length + 2 ≤ capacity
  · refine ⟨some buffer, capacity, memory, if_pos hroom, fun hnone => (by cases hnone), ?_⟩
    rintro buffer' ⟨rfl⟩
    exact ⟨hbuffers, hroom⟩
  · rw [if_neg hroom]
    have hless := hbuffers.room
    obtain hfails | ⟨address, after, hgrows, hafter⟩ :=
      hbuffers.realloc allocator (show capacity ≤ capacity * 2 by omega)
    · refine ⟨none, capacity * 2, memory, ?_, fun _ => hbuffers, fun _ hsome => (by cases hsome)⟩
      rw [hfails]
      rfl
    · refine ⟨some address, capacity * 2, after, ?_, fun hnone => (by cases hnone), ?_⟩
      · rw [hgrows]
        rfl
      · rintro buffer' ⟨rfl⟩
        exact ⟨hafter, by omega⟩

theorem Buffers.push (hbuffers : Buffers base memory buffer capacity bytes)
    (hroom : bytes.length + 2 ≤ capacity) (byte : UInt8) :
    ∃ after, storeByte buffer bytes.length byte memory = some after ∧
      Buffers base after buffer capacity (bytes ++ [byte]) := by
  obtain ⟨content, hblock, hbytes⟩ := hbuffers.block
  have hlive : memory.block buffer = some ⟨capacity, content⟩ := by
    rw [hblock, Function.update_self]
  obtain ⟨after, hstore, hafter⟩ := storeByte_spec hlive hbuffers.room byte
  have hlength : (bytes ++ [byte]).length < capacity := by
    rw [List.length_append, List.length_singleton]
    omega
  refine ⟨after, hstore, hbuffers.fresh, hlength, Function.update content bytes.length byte, ?_,
    fun index found hfound => ?_⟩
  · rw [hafter, hblock, Function.update_idem]
  · by_cases hindex : index = bytes.length
    · subst hindex
      rw [List.getElem?_concat_length] at hfound
      rw [Function.update_self]
      exact Option.some.inj hfound
    · rw [Function.update_of_ne hindex]
      have hless := (List.getElem?_eq_some_iff.mp hfound).1
      rw [List.length_append, List.length_singleton] at hless
      rw [List.getElem?_append_left (by omega)] at hfound
      exact hbytes index found hfound

theorem stringFrom_spec {content : Nat → UInt8} {left index : Nat} (hleft : bytes.length < left)
    (hbytes : ∀ offset byte, bytes[offset]? = some byte → content (index + offset) = byte)
    (hend : content (index + bytes.length) = 0) (hnul : ∀ byte ∈ bytes, byte ≠ 0) :
    stringFrom content left index = some bytes := by
  induction bytes generalizing left index with
  | nil =>
      cases left with
      | zero => cases hleft
      | succ left => exact if_pos hend
  | cons byte rest ih =>
      cases left with
      | zero => cases hleft
      | succ left =>
          have hbyte : content index = byte := hbytes 0 byte rfl
          have hrest : stringFrom content left (index + 1) = some rest := by
            refine ih (Nat.lt_of_succ_lt_succ hleft) (fun offset found hfound => ?_) ?_
              fun found hmem => hnul found (List.mem_cons_of_mem _ hmem)
            · rw [Nat.add_assoc, Nat.add_comm 1]
              exact hbytes (offset + 1) found hfound
            · rw [Nat.add_assoc, Nat.add_comm 1]
              exact hend
          rw [stringFrom, hbyte, if_neg (hnul byte List.mem_cons_self), hrest]
          rfl

/-- The NUL behind the bytes fits as well. -/
theorem Buffers.finish (hbuffers : Buffers base memory buffer capacity bytes) :
    ∃ after, storeByte buffer bytes.length 0 memory = some after ∧
      (∃ block, after.block = Function.update base.block buffer (some block)) ∧
      ((∀ byte ∈ bytes, byte ≠ 0) → stringAt after buffer = some bytes) := by
  obtain ⟨content, hblock, hbytes⟩ := hbuffers.block
  have hlive : memory.block buffer = some ⟨capacity, content⟩ := by
    rw [hblock, Function.update_self]
  obtain ⟨after, hstore, hafter⟩ := storeByte_spec hlive hbuffers.room 0
  refine ⟨after, hstore, ⟨_, by rw [hafter, hblock, Function.update_idem]⟩, fun hnul => ?_⟩
  rw [stringAt, hafter, Function.update_self, Option.bind_some]
  refine stringFrom_spec hbuffers.room (fun offset byte hbyte => ?_) ?_ hnul
  · have hless := (List.getElem?_eq_some_iff.mp hbyte).1
    rw [Nat.zero_add]
    dsimp only
    rw [Function.update_of_ne (Nat.ne_of_lt hless)]
    exact hbytes offset byte hbyte
  · rw [Nat.zero_add]
    exact Function.update_self ..

end

/-! Streams that are read. -/

/-- Since `before` the stream was opened, and so many bytes were read. -/
structure Reading (before files : Streams π) (handle : Nat) (path : π) (offset : Nat) : Prop where
  content : files.content = before.content
  stream : files.stream = Function.update before.stream handle (some ⟨path, offset, false⟩)
  opened : files.opened = before.opened ++ [handle]
  closed : files.closed = before.closed

section

variable {before files : Streams π} {handle offset : Nat} {path : π} {bytes : Text}

omit [DecidableEq π] in
theorem Reading.live (hreading : Reading before files handle path offset) :
    files.stream handle = some ⟨path, offset, false⟩ := by
  rw [hreading.stream, Function.update_self]

theorem fopen_read (path : π) (file : Option Nat) (files : Streams π) :
    files.fopen .read path file = (none, files) ∨
      ∃ handle bytes after, file = some handle ∧ files.content path = some bytes ∧
        files.fopen .read path file = (some handle, after) ∧
        Reading files after handle path 0 := by
  cases file with
  | none => exact .inl rfl
  | some handle =>
      cases hcontent : files.content path with
      | none =>
          refine .inl ?_
          simp only [Streams.fopen, hcontent]
      | some bytes =>
          refine .inr ⟨handle, bytes, files.holding handle ⟨path, 0, false⟩, rfl, rfl, ?_,
            rfl, rfl, rfl, rfl⟩
          simp only [Streams.fopen, hcontent]

omit [DecidableEq π] in
theorem Reading.fgetc (hreading : Reading before files handle path offset)
    (hcontent : before.content path = some bytes) :
    bytes.length ≤ offset ∧ files.fgetc handle = some (none, files) ∨
      ∃ byte after, bytes[offset]? = some byte ∧ files.fgetc handle = some (some byte, after) ∧
        Reading before after handle path (offset + 1) := by
  have hbytes : (files.content path).getD [] = bytes := by
    rw [hreading.content, hcontent, Option.getD_some]
  cases hbyte : bytes[offset]? with
  | none =>
      have hend := List.getElem?_eq_none_iff.mp hbyte
      exact .inl ⟨hend, Streams.fgetc_end hreading.live (by rw [hbytes]; exact hend)⟩
  | some byte =>
      refine .inr ⟨byte, _, rfl, Streams.fgetc_byte hreading.live (by rw [hbytes]; exact hbyte),
        hreading.content, ?_, hreading.opened, hreading.closed⟩
      dsimp only
      rw [hreading.stream, Function.update_idem]

theorem Reading.fclose (hreading : Reading before files handle path offset)
    (hfresh : before.stream handle = none) (closed : CloseAnswer) :
    ∃ result after, files.fclose handle closed = some (result, after) ∧
      Settled before after none ∧ (result = true ↔ closed = .done) := by
  obtain ⟨result, content, hclose, hcontent, hresult, -⟩ :=
    Streams.fclose_of_open hreading.live closed
  refine ⟨result, _, hclose, ⟨fun other _ => ?_, ?_, [handle], [handle], hreading.opened, ?_,
    .refl _⟩, hresult⟩
  · exact (hcontent other (.inl rfl)).trans (congrFun hreading.content other)
  · dsimp only
    rw [hreading.stream, Function.update_idem, ← hfresh, Function.update_eq_self]
  · rw [← hreading.closed]

omit [DecidableEq π] in
theorem countLoop_spec {turns : Nat} (hreading : Reading before files handle path offset)
    (hcontent : before.content path = some bytes) (hoffset : offset ≤ bytes.length)
    (hturns : bytes.length < offset + turns) :
    ∃ after, countLoop handle turns offset files = some (bytes.length, after) ∧
      Reading before after handle path bytes.length := by
  induction turns generalizing files offset with
  | zero => omega
  | succ turns ih =>
      rw [countLoop]
      obtain ⟨hend, hch⟩ | ⟨byte, after, hbyte, hch, hafter⟩ := hreading.fgetc hcontent
      · obtain rfl := Nat.le_antisymm hoffset hend
        rw [hch]
        exact ⟨files, rfl, hreading⟩
      · rw [hch]
        have hless := (List.getElem?_eq_some_iff.mp hbyte).1
        exact ih hafter hless (by omega)

omit [DecidableEq π] in
/-- The buffer holds what was read; without room for more it stays behind. -/
theorem readLoop_spec {base memory : Memory} {turns buffer capacity : Nat}
    (allocator : Allocator) (hreading : Reading before files handle path offset)
    (hcontent : before.content path = some bytes) (hoffset : offset ≤ bytes.length)
    (hbuffers : Buffers base memory buffer capacity (bytes.take offset))
    (hturns : bytes.length < offset + turns) :
    ∃ buffer' length after offset' capacity' part,
      readLoop allocator handle turns buffer offset capacity ⟨files, memory⟩ =
        some ((buffer', length), after) ∧
      Reading before after.files handle path offset' ∧
      Buffers base after.memory buffer' capacity' part ∧
      ∀ count, length = some count → count = bytes.length ∧ part = bytes := by
  induction turns generalizing files offset memory buffer capacity with
  | zero => omega
  | succ turns ih =>
      rw [readLoop]
      dsimp only
      have hlength : (bytes.take offset).length = offset := List.length_take_of_le hoffset
      obtain ⟨hend, hch⟩ | ⟨byte, after, hbyte, hch, hafter⟩ := hreading.fgetc hcontent
      · obtain rfl := Nat.le_antisymm hoffset hend
        rw [hch]
        refine ⟨buffer, some bytes.length, _, bytes.length, capacity, _, rfl, hreading, hbuffers, ?_⟩
        rintro count ⟨rfl⟩
        exact ⟨rfl, List.take_length⟩
      · have hless := (List.getElem?_eq_some_iff.mp hbyte).1
        obtain ⟨grown, capacity', memory', hensure, hstuck, hroom⟩ := hbuffers.ensure allocator
        rw [hlength] at hensure
        rw [hch, Option.bind_eq_bind, Option.bind_some]
        dsimp only
        rw [hensure, Option.bind_eq_bind, Option.bind_some]
        cases grown with
        | none =>
            exact ⟨buffer, none, _, offset + 1, capacity, _, rfl, hafter, hstuck rfl,
              fun _ hsome => (by cases hsome)⟩
        | some buffer' =>
            obtain ⟨hbuffers', hspace⟩ := hroom buffer' rfl
            obtain ⟨memory'', hstore, hpushed⟩ := hbuffers'.push hspace byte
            rw [hlength] at hstore
            dsimp only
            rw [hstore, Option.bind_eq_bind, Option.bind_some]
            refine ih hafter hless ?_ (by omega)
            rw [List.take_add_one, hbyte]
            exact hpushed

end

/-! The five calls. -/

section

variable {world : World π} {path fromPath toPath : π}

omit [DecidableEq π] in
theorem Settled.refl (files : Streams π) (target : Option π) : Settled files files target :=
  ⟨fun _ _ => rfl, rfl, [], [], (List.append_nil _).symm, (List.append_nil _).symm, .refl _⟩

theorem readText_spec (path : π) (allocator : Allocator) (file : Option Nat)
    (closed : CloseAnswer)
    (hfresh : ∀ handle, file = some handle → world.files.stream handle = none) :
    ∃ result after, readText path allocator file closed world = some (result, after) ∧
      Keeps world (.readText path allocator file closed) (.text result) after := by
  rw [readText]
  obtain hopen | ⟨handle, bytes, files, rfl, hcontent, hopen, hreading⟩ :=
    fopen_read path file world.files
  · rw [hopen]
    exact ⟨none, world, rfl, trivial, .refl _ _, rfl⟩
  have hhandle := hfresh handle rfl
  rw [hopen]
  dsimp only
  obtain hmalloc | ⟨buffer, garbage, memory, hmalloc, hbuffer, hmemory⟩ :=
    malloc_spec allocator 64 world.memory
  · obtain ⟨result, after, hclose, hsettled, -⟩ := hreading.fclose hhandle closed
    rw [hmalloc]
    dsimp only
    rw [hclose]
    exact ⟨none, _, rfl, trivial, hsettled, rfl⟩
  have hbuffers : Buffers world.memory memory buffer 64 (bytes.take 0) :=
    ⟨hbuffer, by simp, garbage, hmemory, fun index byte hbyte => by simp at hbyte⟩
  have hturns : turnsFor world path = bytes.length + 1 := by
    rw [turnsFor, hcontent, Option.getD_some]
  obtain ⟨buffer', length, ⟨files', memory'⟩, offset, capacity, part, hloop, hread, hheld, hwhole⟩ :=
    readLoop_spec allocator hreading hcontent (Nat.zero_le _) hbuffers
      (show bytes.length < 0 + (bytes.length + 1) by omega)
  rw [hmalloc]
  dsimp only
  rw [hturns, hloop, Option.bind_eq_bind, Option.bind_some]
  obtain ⟨result, after, hclose, hsettled, -⟩ := hread.fclose hhandle closed
  cases length with
  | none =>
      obtain ⟨memory'', hfree, hback⟩ := hheld.free
      dsimp only at hclose hfree ⊢
      rw [hfree, Option.bind_eq_bind, Option.bind_some, hclose]
      exact ⟨none, _, rfl, trivial, hsettled, hback⟩
  | some count =>
      obtain ⟨rfl, rfl⟩ := hwhole count rfl
      obtain ⟨memory'', hstore, hblock, hstring⟩ := hheld.finish
      dsimp only at hclose hstore ⊢
      rw [hstore, Option.bind_eq_bind, Option.bind_some, hclose]
      exact ⟨some buffer', _, rfl, ⟨part, hcontent, hstring⟩, hsettled, hheld.fresh, hblock⟩

theorem fileSize_spec (path : π) (file : Option Nat) (closed : CloseAnswer)
    (hfresh : ∀ handle, file = some handle → world.files.stream handle = none) :
    ∃ result after, fileSize path file closed world = some (result, after) ∧
      Keeps world (.fileSize path file closed) (.size result) after := by
  rw [fileSize]
  obtain hopen | ⟨handle, bytes, files, rfl, hcontent, hopen, hreading⟩ :=
    fopen_read path file world.files
  · rw [hopen]
    exact ⟨none, world, rfl, trivial, .refl _ _, rfl⟩
  have hturns : turnsFor world path = bytes.length + 1 := by
    rw [turnsFor, hcontent, Option.getD_some]
  obtain ⟨files', hloop, hread⟩ := countLoop_spec hreading hcontent (Nat.zero_le _)
    (show bytes.length < 0 + (bytes.length + 1) by omega)
  obtain ⟨result, after, hclose, hsettled, -⟩ := hread.fclose (hfresh handle rfl) closed
  rw [hopen]
  dsimp only
  rw [hturns, hloop, Option.bind_eq_bind, Option.bind_some]
  dsimp only
  rw [hclose]
  refine ⟨_, _, rfl, ?_, hsettled, rfl⟩
  cases result with
  | false => exact trivial
  | true => exact ⟨bytes, hcontent, rfl⟩

/-- The bytes that are there when the file is opened. -/
def kept (mode : OpenMode) (path : π) (files : Streams π) : Text :=
  if mode = .append then (files.content path).getD [] else []

theorem fopen_put {mode : OpenMode} (hmode : mode ≠ .read) (path : π) (handle : Nat)
    (files : Streams π) :
    files.fopen mode path (some handle) =
      (some handle, (files.write path (kept mode path files)).holding handle ⟨path, 0, true⟩) := by
  cases mode with
  | read => exact absurd rfl hmode
  | write => simp only [Streams.fopen, kept, reduceCtorEq, if_false]
  | append => simp only [Streams.fopen, kept, if_true]

theorem putText_spec {mode : OpenMode} (hmode : mode ≠ .read) (path : π) (data : CString)
    (file : Option Nat) (accepted : Nat) (closed : CloseAnswer)
    (hfresh : ∀ handle, file = some handle → world.files.stream handle = none) :
    ∃ ok after, putText mode path data file accepted closed world = some (ok, after) ∧
      after.memory = world.memory ∧ Settled world.files after.files (some path) ∧
      (ok = true → after.files.content path =
        some (kept mode path world.files ++ data.bytes)) := by
  rw [putText]
  cases file with
  | none =>
      rw [Streams.fopen]
      exact ⟨false, world, rfl, rfl, .refl _ _, fun hfalse => (by cases hfalse)⟩
  | some handle =>
      rw [fopen_put hmode]
      dsimp only
      generalize hopened : (world.files.write path (kept mode path world.files)).holding handle
        ⟨path, 0, true⟩ = files
      have hstream : files.stream handle = some ⟨path, 0, true⟩ := by
        rw [← hopened]
        exact Function.update_self ..
      have hcontent : files.content =
          Function.update world.files.content path (some (kept mode path world.files)) := by
        rw [← hopened]
        rfl
      rw [Streams.fwrite_of_open hstream rfl, Option.bind_eq_bind, Option.bind_some]
      dsimp only
      generalize hwritten : files.write path _ = files'
      have hstream' : files'.stream handle = some ⟨path, 0, true⟩ := by
        rw [← hwritten]
        exact hstream
      have hcontent' : files'.content = Function.update world.files.content path
          (some (kept mode path world.files ++
            (data.bytes.take data.strlen).take accepted)) := by
        rw [← hwritten, Streams.write, hcontent, Function.update_self, Option.getD_some]
        exact Function.update_idem ..
      obtain ⟨result, content, hclose, hothers, -, hsame⟩ :=
        Streams.fclose_of_open hstream' closed
      rw [hclose]
      refine ⟨_, _, rfl, rfl, ⟨fun other hother => ?_, ?_, [handle], [handle], ?_, ?_, .refl _⟩,
        fun hok => ?_⟩
      · have hne : other ≠ path := fun heq => hother (congrArg some heq.symm)
        refine (hothers other (.inr hne)).trans ?_
        rw [hcontent', Function.update_of_ne hne]
      · dsimp only
        rw [← hwritten, ← hopened]
        exact (Function.update_idem ..).trans (by
          rw [← hfresh handle rfl]
          exact Function.update_eq_self ..)
      · rw [← hwritten, ← hopened]
        rfl
      · rw [← hwritten, ← hopened]
        rfl
      · rw [Bool.and_eq_true, decide_eq_true_eq] at hok
        obtain ⟨hwhole, hclosed⟩ := hok
        have hall : data.bytes.take data.strlen = data.bytes := List.take_length
        rw [hall] at hwhole hcontent'
        have htake : data.bytes.take accepted = data.bytes :=
          (List.take_prefix _ _).eq_of_length hwhole
        rw [htake] at hcontent'
        dsimp only
        rw [hsame hclosed, hcontent', Function.update_self]

/-! `copy`, between its two streams. -/

/-- Since `before` both streams were opened, and so much is in the target. -/
structure Copying (before files : Streams π) (src dst : Nat) (fromPath toPath : π)
    (offset : Nat) (part : Text) : Prop where
  others : ∀ path, path ≠ toPath → files.content path = before.content path
  written : files.content toPath = some part
  stream : files.stream = Function.update
    (Function.update before.stream src (some ⟨fromPath, offset, false⟩)) dst
    (some ⟨toPath, 0, true⟩)
  opened : files.opened = before.opened ++ [src, dst]
  closed : files.closed = before.closed

variable {before files : Streams π} {src dst offset : Nat} {part bytes : Text}

omit [DecidableEq π] in
theorem Copying.source (hcopying : Copying before files src dst fromPath toPath offset part)
    (hne : src ≠ dst) : files.stream src = some ⟨fromPath, offset, false⟩ := by
  rw [hcopying.stream, Function.update_of_ne hne, Function.update_self]

omit [DecidableEq π] in
theorem Copying.target (hcopying : Copying before files src dst fromPath toPath offset part) :
    files.stream dst = some ⟨toPath, 0, true⟩ := by
  rw [hcopying.stream, Function.update_self]

/-- One byte further, with what the target has by now. -/
theorem Copying.next (hcopying : Copying before files src dst fromPath toPath offset part)
    (hne : src ≠ dst) (part' : Text) :
    Copying before (Streams.write { files with
        stream := Function.update files.stream src (some ⟨fromPath, offset + 1, false⟩) }
      toPath part') src dst fromPath toPath (offset + 1) part' where
  others path hpath := (Function.update_of_ne hpath _ _).trans (hcopying.others path hpath)
  written := Function.update_self ..
  stream := by
    dsimp only [Streams.write]
    rw [hcopying.stream, Function.update_comm hne, Function.update_idem,
      Function.update_comm hne.symm]
  opened := hcopying.opened
  closed := hcopying.closed

theorem copyLoop_spec {turns : Nat} (written : Nat → Bool) (hne : src ≠ dst)
    (hpaths : fromPath ≠ toPath) (hcontent : before.content fromPath = some bytes)
    (hcopying : Copying before files src dst fromPath toPath offset (bytes.take offset))
    (hoffset : offset ≤ bytes.length) (hturns : bytes.length < offset + turns) :
    ∃ ok after offset' part, copyLoop src dst written turns offset files = some (ok, after) ∧
      Copying before after src dst fromPath toPath offset' part ∧
      (ok = true → part = bytes) := by
  induction turns generalizing files offset with
  | zero => omega
  | succ turns ih =>
      rw [copyLoop]
      have hread : (files.content fromPath).getD [] = bytes := by
        rw [hcopying.others fromPath hpaths, hcontent, Option.getD_some]
      cases hbyte : bytes[offset]? with
      | none =>
          have hend := List.getElem?_eq_none_iff.mp hbyte
          obtain rfl := Nat.le_antisymm hoffset hend
          rw [Streams.fgetc_end (hcopying.source hne) (by rw [hread])]
          exact ⟨true, files, bytes.length, _, rfl, hcopying, fun _ => List.take_length⟩
      | some byte =>
          have hless := (List.getElem?_eq_some_iff.mp hbyte).1
          have htaken : bytes.take offset ++ [byte] = bytes.take (offset + 1) := by
            rw [List.take_add_one, hbyte]
            rfl
          rw [Streams.fgetc_byte (hcopying.source hne) (by rw [hread]; exact hbyte),
            Option.bind_eq_bind, Option.bind_some]
          dsimp only
          have htarget : Function.update files.stream src
              (some ⟨fromPath, offset + 1, false⟩) dst = some ⟨toPath, 0, true⟩ := by
            rw [Function.update_of_ne hne.symm, hcopying.target]
          rw [Streams.fwrite_of_open htarget rfl, Option.bind_eq_bind, Option.bind_some]
          dsimp only
          rw [hcopying.written, Option.getD_some]
          cases written offset with
          | false =>
              exact ⟨false, _, offset + 1, _, rfl, hcopying.next hne _,
                fun hfalse => (by cases hfalse)⟩
          | true =>
              refine ih ?_ hless (by omega)
              rw [← htaken]
              exact hcopying.next hne _

/-- Both streams are closed, the target first. -/
theorem Copying.finish (hcopying : Copying before files src dst fromPath toPath offset part)
    (hne : src ≠ dst) (hsrc : before.stream src = none) (hdst : before.stream dst = none)
    (closeDst closeSrc : CloseAnswer) :
    ∃ dstOk middle srcOk after, files.fclose dst closeDst = some (dstOk, middle) ∧
      middle.fclose src closeSrc = some (srcOk, after) ∧
      Settled before after (some toPath) ∧
      ((dstOk && srcOk) = true ↔ closeDst = .done ∧ closeSrc = .done) ∧
      ((dstOk && srcOk) = true → after.content toPath = some part) := by
  obtain ⟨dstOk, content, hcloseDst, hothers, hdstOk, hsame⟩ :=
    Streams.fclose_of_open hcopying.target closeDst
  have hsource : Function.update files.stream dst none src = some ⟨fromPath, offset, false⟩ := by
    rw [Function.update_of_ne hne, hcopying.source hne]
  obtain ⟨srcOk, content', hcloseSrc, hothers', hsrcOk, -⟩ :=
    @Streams.fclose_of_open π _ ⟨content, Function.update files.stream dst none, files.opened,
      files.closed ++ [dst]⟩ src _ hsource closeSrc
  refine ⟨dstOk, _, srcOk, _, hcloseDst, hcloseSrc, ⟨fun path hpath => ?_, ?_, [src, dst],
    [dst, src], hcopying.opened, ?_, .swap src dst []⟩, ?_, fun hok => ?_⟩
  · have hpath' : path ≠ toPath := fun heq => hpath (congrArg some heq.symm)
    exact (hothers' path (.inl rfl)).trans
      ((hothers path (.inr hpath')).trans (hcopying.others path hpath'))
  · funext handle
    dsimp only
    by_cases hisSrc : handle = src
    · rw [hisSrc, Function.update_self, hsrc]
    · rw [Function.update_of_ne hisSrc]
      by_cases hisDst : handle = dst
      · rw [hisDst, Function.update_self, hdst]
      · rw [Function.update_of_ne hisDst, hcopying.stream, Function.update_of_ne hisDst,
          Function.update_of_ne hisSrc]
  · dsimp only
    rw [hcopying.closed, List.append_assoc]
    rfl
  · rw [Bool.and_eq_true, hdstOk, hsrcOk]
  · rw [Bool.and_eq_true] at hok
    dsimp only
    rw [hothers' toPath (.inl rfl)]
    dsimp only
    rw [hsame hok.1, hcopying.written]

omit [DecidableEq π] in
theorem Settled.mono (hsettled : Settled before files none) (target : Option π) :
    Settled before files target :=
  { hsettled with others := fun path _ => hsettled.others path (by simp) }

/-- The target is opened, and with it emptied, before the first byte is read. -/
theorem Reading.copying (hreading : Reading before files src fromPath 0) (dst : Nat)
    (toPath : π) :
    Copying before ((files.write toPath (kept .write toPath files)).holding dst ⟨toPath, 0, true⟩)
      src dst fromPath toPath 0 [] where
  others path hpath :=
    (Function.update_of_ne hpath _ _).trans (congrFun hreading.content path)
  written := Function.update_self ..
  stream := congrArg (fun stream => Function.update stream dst _) hreading.stream
  opened := (congrArg (· ++ [dst]) hreading.opened).trans (List.append_assoc ..)
  closed := hreading.closed

theorem copy_opened {src dst : Nat} (hcontent : world.files.content fromPath = some bytes)
    (hsrc : world.files.stream src = none) (hdst : world.files.stream dst = none)
    (hne : src ≠ dst) (toPath : π) (written : Nat → Bool) (closeDst closeSrc : CloseAnswer) :
    ∃ ok after, copy fromPath toPath (some src) (some dst) written closeDst closeSrc world =
        some (ok, after) ∧ after.memory = world.memory ∧
      Settled world.files after.files (some toPath) ∧
      (ok = true → after.files.content toPath =
        some (if fromPath = toPath then [] else bytes)) ∧
      (fromPath = toPath → (ok = true ↔ closeDst = .done ∧ closeSrc = .done)) := by
  obtain hopen | ⟨handle, bytes', opened, hhandle, hcontent', hopen, hreading⟩ :=
    fopen_read fromPath (some src) world.files
  · simp only [Streams.fopen, hcontent, Prod.mk.injEq, reduceCtorEq, false_and] at hopen
  obtain rfl := Option.some.inj hhandle
  have hcopying := hreading.copying dst toPath
  have hturns : turnsFor world fromPath = bytes.length + 1 := by
    rw [turnsFor, hcontent, Option.getD_some]
  have hwrite : opened.fopen .write toPath (some dst) = _ := fopen_put (by decide) toPath dst opened
  generalize (opened.write toPath (kept .write toPath opened)).holding dst ⟨toPath, 0, true⟩ =
    files at hcopying hwrite
  rw [copy, hopen]
  dsimp only
  rw [hwrite, hturns]
  dsimp only
  by_cases hpaths : fromPath = toPath
  · subst hpaths
    obtain ⟨dstOk, middle, srcOk, after, hcloseDst, hcloseSrc, hsettled, hok, hwritten⟩ :=
      hcopying.finish hne hsrc hdst closeDst closeSrc
    have hend : files.fgetc src = some (none, files) := by
      refine Streams.fgetc_end (hcopying.source hne) ?_
      rw [hcopying.written]
      exact Nat.le_refl 0
    have hloop : copyLoop src dst written (bytes.length + 1) 0 files = some (true, files) := by
      rw [copyLoop, hend]
      rfl
    rw [hloop, Option.bind_eq_bind, Option.bind_some]
    dsimp only
    rw [hcloseDst, Option.bind_some]
    dsimp only
    rw [hcloseSrc]
    refine ⟨_, _, rfl, rfl, hsettled, fun htrue => ?_, fun _ => ?_⟩
    · rw [if_pos rfl]
      exact hwritten (by simpa using htrue)
    · rw [Bool.true_and, hok]
  · obtain ⟨finished, looped, offset, part, hloop, hlooped, hpart⟩ :=
      copyLoop_spec written hne hpaths hcontent hcopying (Nat.zero_le _)
        (show bytes.length < 0 + (bytes.length + 1) by omega)
    obtain ⟨dstOk, middle, srcOk, after, hcloseDst, hcloseSrc, hsettled, -, hwritten⟩ :=
      hlooped.finish hne hsrc hdst closeDst closeSrc
    rw [hloop, Option.bind_eq_bind, Option.bind_some]
    dsimp only
    rw [hcloseDst, Option.bind_some]
    dsimp only
    rw [hcloseSrc]
    refine ⟨_, _, rfl, rfl, hsettled, fun htrue => ?_, fun hsame => absurd hsame hpaths⟩
    rw [Bool.and_eq_true] at htrue
    rw [if_neg hpaths, ← hpart htrue.1]
    exact hwritten htrue.2

theorem copy_unopened {src dst : Option Nat} (toPath : π) (written : Nat → Bool)
    (closeDst closeSrc : CloseAnswer)
    (hsrc : ∀ handle, src = some handle → world.files.stream handle = none)
    (hnone : world.files.content fromPath = none ∨ src = none ∨ dst = none) :
    ∃ after, copy fromPath toPath src dst written closeDst closeSrc world = some (false, after) ∧
      after.memory = world.memory ∧ Settled world.files after.files (some toPath) := by
  rw [copy]
  obtain hopen | ⟨handle, bytes, files, rfl, hcontent, hopen, hreading⟩ :=
    fopen_read fromPath src world.files
  · rw [hopen]
    exact ⟨world, rfl, rfl, .refl _ _⟩
  · obtain hmissing | hmissing | rfl := hnone
    · rw [hcontent] at hmissing
      cases hmissing
    · cases hmissing
    · obtain ⟨result, after, hclose, hsettled, -⟩ := hreading.fclose (hsrc handle rfl) closeSrc
      rw [hopen]
      dsimp only
      rw [Streams.fopen]
      dsimp only
      rw [hclose]
      exact ⟨_, rfl, rfl, hsettled.mono _⟩

end

/-- A call keeps the contents unless it copies a file that is not empty onto itself. -/
theorem fs_keeps_iff (world : World π) (call : Call π) (hlawful : Lawful world.files call) :
    (∃ result after, step world call = some (result, after) ∧
      Keeps world call result after) ↔ ¬ Clobbers world.files call := by
  cases call with
  | readText path allocator file closed =>
      obtain ⟨result, after, hread, hkeeps⟩ := readText_spec path allocator file closed hlawful
      exact iff_of_true ⟨_, after, by rw [step, hread]; rfl, hkeeps⟩ id
  | fileSize path file closed =>
      obtain ⟨result, after, hsize, hkeeps⟩ := fileSize_spec path file closed hlawful
      exact iff_of_true ⟨_, after, by rw [step, hsize]; rfl, hkeeps⟩ id
  | writeText path data file accepted closed =>
      obtain ⟨ok, after, hwrite, hmemory, hsettled, hcontent⟩ :=
        putText_spec (show OpenMode.write ≠ .read by decide) path data file accepted closed hlawful
      refine iff_of_true ⟨.done ok, after, by rw [step, writeText, hwrite]; rfl, ?_, hsettled,
        congrArg Heap.block hmemory⟩ id
      cases ok with
      | false => exact trivial
      | true => exact hcontent rfl
  | appendText path data file accepted closed =>
      obtain ⟨ok, after, hwrite, hmemory, hsettled, hcontent⟩ :=
        putText_spec (show OpenMode.append ≠ .read by decide) path data file accepted closed hlawful
      refine iff_of_true ⟨.done ok, after, by rw [step, appendText, hwrite]; rfl, ?_, hsettled,
        congrArg Heap.block hmemory⟩ id
      cases ok with
      | false => exact trivial
      | true => exact hcontent rfl
  | copy fromPath toPath src dst written closeDst closeSrc =>
      obtain ⟨hsrc, hdst⟩ := hlawful
      by_cases hnone : world.files.content fromPath = none ∨ src = none ∨ dst = none
      · obtain ⟨after, hcopy, hmemory, hsettled⟩ :=
          copy_unopened toPath written closeDst closeSrc hsrc hnone
        refine iff_of_true ⟨.done false, after, by rw [step, hcopy]; rfl, trivial, hsettled,
          congrArg Heap.block hmemory⟩ ?_
        rintro ⟨-, ⟨byte, rest, hcontent⟩, hsrcSome, hdstSome, -⟩
        obtain hmissing | rfl | rfl := hnone
        · rw [hcontent] at hmissing
          cases hmissing
        · cases hsrcSome
        · cases hdstSome
      · rw [not_or, not_or] at hnone
        obtain ⟨bytes, hcontent⟩ := Option.ne_none_iff_exists'.mp hnone.1
        obtain ⟨src, rfl⟩ := Option.ne_none_iff_exists'.mp hnone.2.1
        obtain ⟨dst, rfl⟩ := Option.ne_none_iff_exists'.mp hnone.2.2
        obtain ⟨hdstFree, hne⟩ := hdst dst rfl
        obtain ⟨ok, after, hcopy, hmemory, hsettled, hwritten, hsame⟩ :=
          copy_opened hcontent (hsrc src rfl) hdstFree
            (fun heq => hne (congrArg some heq)) toPath written closeDst closeSrc
        have hstep : step world (.copy fromPath toPath (some src) (some dst) written closeDst
            closeSrc) = some (.done ok, after) := by
          rw [step, hcopy]
          rfl
        constructor
        · rintro ⟨result, after', hstep', hkeeps⟩ ⟨hpaths, ⟨byte, rest, hfull⟩, -, -, hdone⟩
          rw [hstep] at hstep'
          obtain ⟨rfl, rfl⟩ := Prod.mk.inj (Option.some.inj hstep')
          have htrue := (hsame hpaths).mpr hdone
          subst htrue
          have hmeets : after.files.content toPath = world.files.content fromPath := hkeeps.meets
          rw [hwritten rfl, if_pos hpaths, hfull] at hmeets
          cases hmeets
        · intro hclobbers
          refine ⟨_, after, hstep, ?_, hsettled, congrArg Heap.block hmemory⟩
          cases ok with
          | false => exact trivial
          | true =>
              show after.files.content toPath = world.files.content fromPath
              rw [hwritten rfl, hcontent]
              split
              next hpaths =>
                cases bytes with
                | nil => rfl
                | cons byte rest =>
                    exact absurd ⟨hpaths, ⟨byte, rest, hcontent⟩, rfl, rfl, (hsame hpaths).mp rfl⟩
                      hclobbers
              next => rfl

def twoBytes : World Nat where
  files := ⟨fun path => if path = 0 then some [104, 105] else none, fun _ => none, [], []⟩
  memory := ⟨fun _ => none, 0, []⟩

def copyTo (path : Nat) : Call Nat :=
  .copy 0 path (some 0) (some 1) (fun _ => true) .done .done

theorem fs_keeps_other_copy :
    ∃ result after, step twoBytes (copyTo 1) = some (result, after) ∧
      Keeps twoBytes (copyTo 1) result after :=
  (fs_keeps_iff twoBytes (copyTo 1) ⟨fun _ _ => rfl, fun _ hdst =>
    ⟨rfl, fun hsrc => absurd (hsrc.trans hdst.symm) (by decide)⟩⟩).mpr
    fun hclobbers => absurd hclobbers.1 (by decide)

theorem self_copy_empties :
    ∃ after, step twoBytes (copyTo 0) = some (.done true, after) ∧
      after.files.content 0 ≠ twoBytes.files.content 0 :=
  ⟨_, rfl, fun hsame => by cases hsame⟩

end Fs

end Cnegative
