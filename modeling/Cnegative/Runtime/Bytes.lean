import Cnegative.Library.Storage

namespace Cnegative

namespace Bytes

open Library

/-! `std.bytes.Buffer`, which `std.text.Builder` shares.  The blocks that hold its bytes are
numbered; a block that `realloc` replaced is gone. -/

structure Buffer where
  data : Option (Nat × Library.Block UInt8)
  length : Int
  capacity : Int
  nextBlock : Nat

/-- Where a slice points: to memory apart from the buffer, or into a block of the buffer. -/
inductive Source where
  | apart (bytes : List UInt8)
  | block (id : Nat) (start : Nat)
  deriving DecidableEq, Repr

structure Slice where
  source : Source
  length : Int
  deriving DecidableEq, Repr

/-- What `realloc` or `malloc` answers: the bytes it leaves to chance, or null. -/
abbrev Alloc := Option (Nat → UInt8)

def normalizeCapacity (requested : Int) : Int :=
  if 16 ≤ requested then requested else 16

def bufferEnsure (buffer : Buffer) (needed : Int) (alloc : Alloc) : Bool × Buffer :=
  if needed ≤ buffer.capacity then (true, buffer)
  else match alloc with
    | none => (false, buffer)
    | some fresh =>
      let newCapacity := growTo 16 buffer.capacity needed
      (true,
        { buffer with
          data := some (buffer.nextBlock,
            Library.Block.realloc 1 (buffer.data.map Prod.snd) (unsigned newCapacity) fresh)
          capacity := newCapacity
          nextBlock := buffer.nextBlock + 1 })

/-- `cn_bytes_with_capacity`; `record` is the answer of `malloc` for the record. -/
def withCapacity (capacity : Int) (record : Bool) (alloc : Alloc) : Option Buffer :=
  if record then
    match bufferEnsure ⟨none, 0, 0, 0⟩ (normalizeCapacity capacity) alloc with
    | (true, buffer) => some buffer
    | (false, _) => none
  else none

def new (record : Bool) (alloc : Alloc) : Option Buffer := withCapacity 16 record alloc

def clear (buffer : Buffer) : Buffer := { buffer with length := 0 }

def slice (buffer : Buffer) : Slice :=
  match buffer.data with
  | some (id, _) => ⟨.block id 0, buffer.length⟩
  | none => ⟨.apart [], buffer.length⟩

/-- The bytes behind a pointer, as far as they can be read. -/
def Buffer.read (buffer : Buffer) (count : Nat) : Source → Option (Nat → UInt8)
  | .apart bytes => if count ≤ bytes.length then some fun i => bytes.getD i 0 else none
  | .block id start => match buffer.data with
    | none => none
    | some (current, block) =>
      if id = current ∧ start + count ≤ block.bytes then some fun i => block.slot (start + i)
      else none

/-- `memcpy` wants the two ranges apart. -/
def Source.Apart (target : Nat) (count : Nat) : Source → Prop
  | .apart _ => True
  | .block _ start => start + count ≤ target ∨ target + count ≤ start

instance (target count : Nat) (source : Source) : Decidable (source.Apart target count) := by
  cases source <;> unfold Source.Apart <;> infer_instance

def push (buffer : Buffer) (value : UInt8) (alloc : Alloc) : Option (Bool × Buffer) :=
  let needed := wrap (buffer.length + 1)
  match bufferEnsure buffer needed alloc with
  | (false, buffer) => some (false, buffer)
  | (true, grown) => match grown.data with
    | none => none
    | some (id, block) => do
        let block ← block.store 1 buffer.length value
        return (true, { grown with data := some (id, block), length := needed })

/-- `cn_bytes_append`.  The source is read after the buffer has grown. -/
def append (buffer : Buffer) (values : Slice) (alloc : Alloc) : Option (Bool × Buffer) :=
  if 0 < values.length then
    let needed := wrap (buffer.length + values.length)
    match bufferEnsure buffer needed alloc with
    | (false, buffer) => some (false, buffer)
    | (true, grown) => match grown.data with
      | none => none
      | some (id, block) => do
          let bytes ← grown.read values.length.toNat values.source
          if values.source.Apart buffer.length.toNat values.length.toNat then
            let block ← block.copyIn 1 buffer.length values.length.toNat bytes
            return (true, { grown with data := some (id, block), length := needed })
          else none
  else some (true, buffer)

def get (buffer : Buffer) (index : Int) : Option (Option UInt8) :=
  if 0 ≤ index ∧ index < buffer.length then
    match buffer.data with
    | none => none
    | some (_, block) => (block.load 1 index).map some
  else some none

def set (buffer : Buffer) (index : Int) (value : UInt8) : Option (Bool × Buffer) :=
  if 0 ≤ index ∧ index < buffer.length then
    match buffer.data with
    | none => none
    | some (id, block) => do
        let block ← block.store 1 index value
        return (true, { buffer with data := some (id, block) })
  else some (false, buffer)

/-! The operations of `std.text` that `std.bytes` lacks. -/

/-- `cn_text_append`; a string is its bytes before the zero. -/
def textAppend (builder : Buffer) (value : List UInt8) (alloc : Alloc) : Option (Bool × Buffer) :=
  append builder ⟨.apart value, value.length⟩ alloc

/-- What `snprintf` prints for `%lld`. -/
def decimal (value : Int) : List UInt8 :=
  (toString value).toList.map fun digit => UInt8.ofNat digit.toNat

/-- `cn_text_append_int`; `printed` tells whether `snprintf` succeeds. -/
def textAppendInt (builder : Buffer) (value : Int) (printed : Bool) (alloc : Alloc) :
    Option (Bool × Buffer) :=
  if printed then append builder ⟨.apart (decimal value), (decimal value).length⟩ alloc
  else some (false, builder)

def Slice.bytes (buffer : Buffer) (slice : Slice) : Option (List UInt8) :=
  (buffer.read slice.length.toNat slice.source).map fun byte =>
    (List.range slice.length.toNat).map byte

/-- `cn_dup_range`: the new string with its zero, or the shared empty one. -/
def dupRange (buffer : Buffer) (range : Slice) (alloc : Bool) : Option (List UInt8) :=
  if alloc then (range.bytes buffer).map (· ++ [0]) else some [0]

def textBuild (builder : Buffer) (alloc : Bool) : Option (List UInt8) :=
  dupRange builder (slice builder) alloc

/-! Runs of a program on one buffer. -/

inductive Op where
  | push (value : UInt8) (alloc : Alloc)
  | append (values : Slice) (alloc : Alloc)
  | textAppend (value : List UInt8) (alloc : Alloc)
  | textAppendInt (value : Int) (printed : Bool) (alloc : Alloc)
  | set (index : Int) (value : UInt8)
  | get (index : Int)
  | clear
  | length
  | view
  | textBuild (alloc : Bool)

inductive Answer where
  | done (ok : Bool)
  | byte (value : Option UInt8)
  | int (value : Int)
  | bytes (value : List UInt8)
  deriving DecidableEq, Repr

/-- No result stands for an access outside of what is allocated. -/
def Buffer.step (buffer : Buffer) : Op → Option (Answer × Buffer)
  | .push value alloc => (push buffer value alloc).map fun after => (.done after.1, after.2)
  | .append values alloc => (append buffer values alloc).map fun after => (.done after.1, after.2)
  | .textAppend value alloc =>
      (textAppend buffer value alloc).map fun after => (.done after.1, after.2)
  | .textAppendInt value printed alloc =>
      (textAppendInt buffer value printed alloc).map fun after => (.done after.1, after.2)
  | .set index value => (set buffer index value).map fun after => (.done after.1, after.2)
  | .get index => (get buffer index).map fun value => (.byte value, buffer)
  | .clear => some (.done true, clear buffer)
  | .length => some (.int buffer.length, buffer)
  | .view => ((slice buffer).bytes buffer).map fun bytes => (.bytes bytes, buffer)
  | .textBuild alloc => (textBuild buffer alloc).map fun text => (.bytes text, buffer)

def Buffer.run (buffer : Buffer) : List Op → Option (List Answer × Buffer)
  | [] => some ([], buffer)
  | op :: ops => do
      let (answer, next) ← buffer.step op
      let (answers, last) ← next.run ops
      return (answer :: answers, last)

end Bytes

end Cnegative
