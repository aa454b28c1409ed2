import Mathlib.Tactic

namespace Library

/-! Files and the streams that are open on them. Writing behind a stream that is not open, and
closing it twice, have no result. -/

inductive OpenMode where
  | read
  | write
  | append
  deriving DecidableEq, Repr

/-- What `fclose` answers; when it fails, what is left of a file that was written. -/
inductive CloseAnswer where
  | done
  | failed (left : List UInt8 → List UInt8)

/-- The offset says how many bytes were read. -/
structure Stream (π : Type) where
  path : π
  offset : Nat
  writes : Bool

/-- The files by path, the open streams, and the streams that were opened and closed, the oldest
first. -/
structure Streams (π : Type) where
  content : π → Option (List UInt8)
  stream : Nat → Option (Stream π)
  opened : List Nat
  closed : List Nat

namespace Streams

variable {π : Type}

def holding (files : Streams π) (handle : Nat) (stream : Stream π) : Streams π :=
  { files with
    stream := Function.update files.stream handle (some stream)
    opened := files.opened ++ [handle] }

/-- `fgetc`; `none` is the end of the file. -/
def fgetc (handle : Nat) (files : Streams π) : Option (Option UInt8 × Streams π) :=
  (files.stream handle).map fun stream =>
    match ((files.content stream.path).getD [])[stream.offset]? with
    | none => (none, files)
    | some byte =>
        (some byte, { files with
          stream := Function.update files.stream handle
            (some { stream with offset := stream.offset + 1 }) })

variable [DecidableEq π]

def write (files : Streams π) (path : π) (data : List UInt8) : Streams π :=
  { files with content := Function.update files.content path (some data) }

/-- `fopen`, by the stream it answers; a file that is not there cannot be read. -/
def fopen (mode : OpenMode) (path : π) (answer : Option Nat) (files : Streams π) :
    Option Nat × Streams π :=
  match answer, mode, files.content path with
  | none, _, _ => (none, files)
  | some _, .read, none => (none, files)
  | some handle, .read, some _ => (some handle, files.holding handle ⟨path, 0, false⟩)
  | some handle, .write, _ => (some handle, (files.write path []).holding handle ⟨path, 0, true⟩)
  | some handle, .append, old =>
      (some handle, (files.write path (old.getD [])).holding handle ⟨path, 0, true⟩)

/-- `fwrite` of bytes, of which so many are accepted. -/
def fwrite (handle : Nat) (data : List UInt8) (accepted : Nat) (files : Streams π) :
    Option (Nat × Streams π) := do
  let stream ← files.stream handle
  if stream.writes then
    return ((data.take accepted).length,
      files.write stream.path ((files.content stream.path).getD [] ++ data.take accepted))
  else none

/-- `fclose`, which closes the stream also when it fails. -/
def fclose (handle : Nat) (answer : CloseAnswer) (files : Streams π) :
    Option (Bool × Streams π) := do
  let stream ← files.stream handle
  let after := { files with
    stream := Function.update files.stream handle none
    closed := files.closed ++ [handle] }
  match answer with
  | .done => return (true, after)
  | .failed left =>
      if stream.writes then
        return (false, after.write stream.path (left ((files.content stream.path).getD [])))
      else return (false, after)

section

variable {files : Streams π} {handle : Nat} {stream : Stream π}

omit [DecidableEq π] in
theorem fgetc_end (hstream : files.stream handle = some stream)
    (hend : ((files.content stream.path).getD []).length ≤ stream.offset) :
    fgetc handle files = some (none, files) := by
  rw [fgetc, hstream, Option.map_some, List.getElem?_eq_none hend]

omit [DecidableEq π] in
theorem fgetc_byte (hstream : files.stream handle = some stream) {byte : UInt8}
    (hbyte : ((files.content stream.path).getD [])[stream.offset]? = some byte) :
    fgetc handle files = some (some byte, { files with
      stream := Function.update files.stream handle
        (some { stream with offset := stream.offset + 1 }) }) := by
  rw [fgetc, hstream, Option.map_some, hbyte]

theorem fwrite_of_open (hstream : files.stream handle = some stream)
    (hwrites : stream.writes = true) (data : List UInt8) (accepted : Nat) :
    fwrite handle data accepted files = some ((data.take accepted).length,
      files.write stream.path ((files.content stream.path).getD [] ++ data.take accepted)) := by
  rw [fwrite, hstream, Option.bind_eq_bind, Option.bind_some, if_pos hwrites]
  rfl

/-- Only the file that the stream writes may change, and only when closing fails. -/
theorem fclose_of_open (hstream : files.stream handle = some stream) (answer : CloseAnswer) :
    ∃ result content, fclose handle answer files = some (result,
        ⟨content, Function.update files.stream handle none, files.opened,
          files.closed ++ [handle]⟩) ∧
      (∀ path, stream.writes = false ∨ path ≠ stream.path → content path = files.content path) ∧
      (result = true ↔ answer = .done) ∧ (result = true → content = files.content) := by
  rw [fclose, hstream, Option.bind_eq_bind, Option.bind_some]
  cases answer with
  | done => exact ⟨true, files.content, rfl, fun _ _ => rfl, iff_of_true rfl rfl, fun _ => rfl⟩
  | failed left =>
      dsimp only
      cases hwrites : stream.writes with
      | false => exact ⟨false, files.content, rfl, fun _ _ => rfl, by simp, fun _ => rfl⟩
      | true =>
          refine ⟨false, _, rfl, fun path hpath => ?_, by simp, fun hfalse => (by cases hfalse)⟩
          obtain hread | hother := hpath
          · cases hread
          · exact Function.update_of_ne hother _ _

end

end Streams

end Library
