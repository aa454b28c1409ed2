import Cnegative.Lex.Lexer

namespace Cnegative

/-! The strings of a running program: bytes up to a NUL. -/

structure CString where
  bytes : Text
  nulFree : ∀ ch ∈ bytes, ch ≠ 0

namespace CString

/-- What `malloc` answers for a number of bytes: whether there is room. -/
abbrev Malloc := Nat → Bool

@[ext] theorem ext {left right : CString} (hbytes : left.bytes = right.bytes) : left = right := by
  cases left
  cases right
  congr

/-- The string at `@.cn.empty`. -/
def empty : CString := ⟨[], by simp⟩

/-- The byte at an offset of the pointer; behind the bytes stands the NUL. -/
def byteAt (value : CString) (offset : Nat) : UInt8 := Lex.byteAt value.bytes offset

def strlen (value : CString) : Nat := value.bytes.length

/-- The pointer `offset` bytes into the string. -/
def drop (value : CString) (offset : Nat) : CString :=
  ⟨value.bytes.drop offset, fun ch hch => value.nulFree ch (List.mem_of_mem_drop hch)⟩

def take (value : CString) (length : Nat) : CString :=
  ⟨value.bytes.take length, fun ch hch => value.nulFree ch (List.mem_of_mem_take hch)⟩

def append (left right : CString) : CString :=
  ⟨left.bytes ++ right.bytes, fun ch hch =>
    (List.mem_append.mp hch).elim (left.nulFree ch) (right.nulFree ch)⟩

@[simp] theorem bytes_empty : empty.bytes = [] := rfl

@[simp] theorem bytes_drop (value : CString) (offset : Nat) :
    (value.drop offset).bytes = value.bytes.drop offset := rfl

@[simp] theorem bytes_take (value : CString) (length : Nat) :
    (value.take length).bytes = value.bytes.take length := rfl

@[simp] theorem bytes_append (left right : CString) :
    (left.append right).bytes = left.bytes ++ right.bytes := rfl

theorem byteAt_eq_zero_iff (value : CString) (offset : Nat) :
    value.byteAt offset = 0 ↔ value.bytes.length ≤ offset := by
  rw [byteAt, Lex.byteAt]
  constructor
  · intro hzero
    by_contra hlt
    rw [List.getElem?_eq_getElem (by omega), Option.getD_some] at hzero
    exact value.nulFree _ (List.getElem_mem _) hzero
  · intro hle
    rw [List.getElem?_eq_none hle, Option.getD_none]

theorem drop_eq_cons (value : CString) {offset : Nat} (hlt : offset < value.bytes.length) :
    value.bytes.drop offset = value.byteAt offset :: value.bytes.drop (offset + 1) := by
  rw [List.drop_eq_getElem_cons hlt, byteAt, Lex.byteAt, List.getElem?_eq_getElem hlt,
    Option.getD_some]

def dupCstr (malloc : Malloc) (src : CString) : CString :=
  if malloc (src.strlen + 1) then src else empty

def dupRange (malloc : Malloc) (src : CString) (len : Nat) : CString :=
  if malloc (len + 1) then src.take len else empty

end CString

end Cnegative
