import Cnegative.Library.Storage

namespace Cnegative

namespace Lines

open Library

/-! `std.lines.Buffer`: an array of pointers to copies of lines.  The copies are numbered; one
that was freed is gone. -/

/-- A copy of a line, or null. -/
abbrev Ptr := Option Nat

/-- The copies that are not freed. -/
structure Strings where
  text : Nat → Option (List UInt8)
  next : Nat

def Strings.free (strings : Strings) (id : Nat) : Option Strings :=
  (strings.text id).map fun _ => { strings with text := Function.update strings.text id none }

structure Buffer where
  data : Option (Library.Block Ptr)
  length : Int
  capacity : Int

/-- A string of the program: some memory of its own, or a line that a buffer owns. -/
inductive Value where
  | apart (bytes : List UInt8)
  | line (id : Nat)
  deriving DecidableEq, Repr

def Value.read (strings : Strings) : Value → Option (List UInt8)
  | .apart bytes => some bytes
  | .line id => strings.text id

/-- What `realloc` answers: the slots it leaves to chance, or null. -/
abbrev Alloc := Option (Nat → Ptr)

def normalizeCapacity (requested : Int) : Int :=
  if 8 ≤ requested then requested else 8

def arraySize (count : Int) : Int := wrap (count * 8)

/-- `cn_lines_dup`; `alloc` is the answer of `malloc`. -/
def dup (strings : Strings) (source : Value) (alloc : Bool) : Option (Ptr × Strings) := do
  let text ← source.read strings
  if alloc then
    return (some strings.next,
      { text := Function.update strings.text strings.next (some text), next := strings.next + 1 })
  else return (none, strings)

/-- The body of the loop of `cn_lines_free_items`. -/
def freeItem (data : Library.Block Ptr) (strings : Strings) (index : Nat) : Option Strings := do
  match ← data.load 8 index with
  | none => return strings
  | some id => strings.free id

def freeItems (data : Option (Library.Block Ptr)) (count : Int) (strings : Strings) : Option Strings :=
  match data with
  | none => some strings
  | some data => (List.range count.toNat).foldlM (freeItem data) strings

def bufferEnsure (buffer : Buffer) (needed : Int) (alloc : Alloc) : Bool × Buffer :=
  if needed ≤ buffer.capacity then (true, buffer)
  else match alloc with
    | none => (false, buffer)
    | some fresh =>
      let newCapacity := growTo 8 buffer.capacity needed
      (true,
        { buffer with
          data := some (Library.Block.realloc 8 buffer.data (unsigned (arraySize newCapacity)) fresh)
          capacity := newCapacity })

/-- `cn_lines_with_capacity`; `record` is the answer of `malloc` for the record. -/
def withCapacity (capacity : Int) (record : Bool) (alloc : Alloc) : Option Buffer :=
  if record then
    match bufferEnsure ⟨none, 0, 0⟩ (normalizeCapacity capacity) alloc with
    | (true, buffer) => some buffer
    | (false, _) => none
  else none

def new (record : Bool) (alloc : Alloc) : Option Buffer := withCapacity 8 record alloc

def free (buffer : Buffer) (strings : Strings) : Option Strings :=
  freeItems buffer.data buffer.length strings

def clear (buffer : Buffer) (strings : Strings) : Option (Buffer × Strings) := do
  let strings ← freeItems buffer.data buffer.length strings
  return ({ buffer with length := 0 }, strings)

def get (buffer : Buffer) (index : Int) : Option (Option Ptr) :=
  if 0 ≤ index ∧ index < buffer.length then
    match buffer.data with
    | none => none
    | some data => (data.load 8 index).map some
  else some none

/-- `free`, which a null pointer does not reach. -/
def freePtr (strings : Strings) : Ptr → Option Strings
  | none => some strings
  | some id => strings.free id

def set (buffer : Buffer) (strings : Strings) (index : Int) (value : Value) (alloc : Bool) :
    Option (Bool × Buffer × Strings) :=
  if 0 ≤ index ∧ index < buffer.length then do
    let (copy, strings) ← dup strings value alloc
    match copy with
    | none => return (false, buffer, strings)
    | some copy =>
      let data ← buffer.data
      let old ← data.load 8 index
      let strings ← freePtr strings old
      let data ← data.store 8 index (some copy)
      return (true, { buffer with data := some data }, strings)
  else some (false, buffer, strings)

/-- `memmove` of a part of the array; its size is in bytes. -/
def moveTail (data : Library.Block Ptr) (target source : Int) (bytes : Nat) : Option (Library.Block Ptr) :=
  if 0 ≤ source ∧ source * 8 + bytes ≤ data.bytes then
    data.copyIn 8 target (bytes / 8) fun i => data.slot (source.toNat + i)
  else none

/-- `do.move`, past the test for a tail. -/
def shiftTail (data : Library.Block Ptr) (target source tailCount : Int) : Option (Library.Block Ptr) :=
  if 0 < tailCount then moveTail data target source (unsigned (arraySize tailCount))
  else some data

def insert (buffer : Buffer) (strings : Strings) (index : Int) (value : Value) (alloc : Bool)
    (grow : Alloc) : Option (Bool × Buffer × Strings) :=
  if 0 ≤ index ∧ index ≤ buffer.length then do
    let (copy, strings) ← dup strings value alloc
    match copy with
    | none => return (false, buffer, strings)
    | some copy =>
      let needed := wrap (buffer.length + 1)
      match bufferEnsure buffer needed grow with
      | (false, buffer) => do
          let strings ← strings.free copy
          return (false, buffer, strings)
      | (true, grown) => do
          let data ← grown.data
          let tailCount := wrap (buffer.length - index)
          let data ← shiftTail data (wrap (index + 1)) index tailCount
          let data ← data.store 8 index (some copy)
          return (true, { grown with data := some data, length := needed }, strings)
  else some (false, buffer, strings)

def push (buffer : Buffer) (strings : Strings) (value : Value) (alloc : Bool) (grow : Alloc) :
    Option (Bool × Buffer × Strings) :=
  insert buffer strings buffer.length value alloc grow

def remove (buffer : Buffer) (strings : Strings) (index : Int) :
    Option (Bool × Buffer × Strings) :=
  if 0 ≤ index ∧ index < buffer.length then do
    let data ← buffer.data
    let old ← data.load 8 index
    let strings ← freePtr strings old
    let lastIndex := wrap (buffer.length - 1)
    let tailCount := wrap (wrap (buffer.length - index) - 1)
    let data ← shiftTail data index (wrap (index + 1)) tailCount
    let data ← data.store 8 lastIndex none
    return (true, { buffer with data := some data, length := lastIndex }, strings)
  else some (false, buffer, strings)

/-! Runs of a program on one buffer. -/

inductive Op where
  | push (value : Value) (alloc : Bool) (grow : Alloc)
  | insert (index : Int) (value : Value) (alloc : Bool) (grow : Alloc)
  | set (index : Int) (value : Value) (alloc : Bool)
  | remove (index : Int)
  | get (index : Int)
  | clear
  | length

inductive Answer where
  | done (ok : Bool)
  | line (text : Option (List UInt8))
  | int (value : Int)
  deriving DecidableEq, Repr

structure State where
  buffer : Buffer
  strings : Strings

/-- The string behind the pointer that `cn_lines_get` hands out. -/
def State.get (state : State) (index : Int) : Option (Option (List UInt8)) :=
  match Lines.get state.buffer index with
  | none => none
  | some none => some none
  | some (some none) => none
  | some (some (some id)) => (state.strings.text id).map some

/-- No result stands for an access outside of what is allocated, and for a second `free`. -/
def State.step (state : State) : Op → Option (Answer × State)
  | .push value alloc grow =>
      (Lines.push state.buffer state.strings value alloc grow).map fun after =>
        (.done after.1, ⟨after.2.1, after.2.2⟩)
  | .insert index value alloc grow =>
      (Lines.insert state.buffer state.strings index value alloc grow).map fun after =>
        (.done after.1, ⟨after.2.1, after.2.2⟩)
  | .set index value alloc =>
      (Lines.set state.buffer state.strings index value alloc).map fun after =>
        (.done after.1, ⟨after.2.1, after.2.2⟩)
  | .remove index =>
      (Lines.remove state.buffer state.strings index).map fun after =>
        (.done after.1, ⟨after.2.1, after.2.2⟩)
  | .get index => (state.get index).map fun line => (.line line, state)
  | .clear => (Lines.clear state.buffer state.strings).map fun after =>
      (.done true, ⟨after.1, after.2⟩)
  | .length => some (.int state.buffer.length, state)

def State.run (state : State) : List Op → Option (List Answer × State)
  | [] => some ([], state)
  | op :: ops => do
      let (answer, next) ← state.step op
      let (answers, last) ← next.run ops
      return (answer :: answers, last)

end Lines

end Cnegative
