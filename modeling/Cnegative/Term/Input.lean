import Cnegative.Syntax.Text
import Cnegative.Library.Reader
import Cnegative.Library.Utf8

namespace Cnegative

namespace Input

/-! The input of `std.term` on the Unix systems, where all bytes of the stream are there: a read
with a timeout fails at the end only. -/

/-- An `i64`. -/
abbrev Word := BitVec 64

structure Event where
  kind : Word
  code : Word
  modifiers : Word
  row : Word
  column : Word
  deriving DecidableEq, Repr

def makeKeyEvent (code modifiers : Word) : Event := ⟨1, code, modifiers, 0, 0⟩

def makeMouseEvent (code modifiers row column : Word) : Event := ⟨2, code, modifiers, row, column⟩

def makePasteEvent : Event := ⟨4, 0, 0, 0, 0⟩

def word (byte : UInt8) : Word := byte.toNat

def unknown : Event := makeKeyEvent 0 0

/-- The bytes that continue a character, so many of them, and its code so far. -/
def decodeTail (mods : Word) : Nat → Word → Text → Option Event × Text
  | 0, code, input => (some (makeKeyEvent code mods), input)
  | _ + 1, _, [] => (none, [])
  | count + 1, code, byte :: input =>
      if word byte &&& 192 = 128 then decodeTail mods count ((code <<< 6) ||| (word byte &&& 63)) input
      else (some (makeKeyEvent 0 mods), input)

def decodeUtf8 (first : UInt8) (mods : Word) (input : Text) : Option Event × Text :=
  if 194 ≤ first ∧ first ≤ 223 then decodeTail mods 1 (word first &&& 31) input
  else if 224 ≤ first ∧ first ≤ 239 then decodeTail mods 2 (word first &&& 15) input
  else if 240 ≤ first ∧ first ≤ 244 then decodeTail mods 3 (word first &&& 7) input
  else (some (makeKeyEvent 0 mods), input)

def decodeSimpleByte (byte : UInt8) (mods : Word) (input : Text) : Option Event × Text :=
  if byte = 27 then (some (makeKeyEvent 256 mods), input)
  else if byte = 13 then (some (makeKeyEvent 257 mods), input)
  else if byte = 10 then (some (makeKeyEvent 257 mods), input)
  else if byte = 9 then (some (makeKeyEvent 258 mods), input)
  else if byte = 127 then (some (makeKeyEvent 259 mods), input)
  else if byte = 8 then (some (makeKeyEvent 259 mods), input)
  else if 32 ≤ byte ∧ byte ≤ 126 then (some (makeKeyEvent (word byte) mods), input)
  else if 1 ≤ byte ∧ byte ≤ 26 then (some (makeKeyEvent (word byte + 96) (mods ||| 4)), input)
  else if 194 ≤ byte then decodeUtf8 byte mods input
  else (some (makeKeyEvent 0 mods), input)

def csiModifiers (param : Word) : Word :=
  if param = 2 then 1
  else if param = 3 then 2
  else if param = 4 then 3
  else if param = 5 then 4
  else if param = 6 then 5
  else if param = 7 then 6
  else if param = 8 then 7
  else 0

def isDigit (ch : UInt8) : Bool := 48 ≤ ch && ch ≤ 57

def semicolon : UInt8 := 59

def addDigit (current : Word) (ch : UInt8) : Word := current * 10 + (word ch - 48)

/-- `store.row` of `cn_term_parse_mouse_sgr` and what follows. -/
def mouseEvent (release : Bool) (btn col row : Word) : Event :=
  let modsShift := if btn &&& 4 ≠ 0 then 1 else 0
  let modsAlt := if btn &&& 8 ≠ 0 then 2 else 0
  let modsCtrl := if btn &&& 16 ≠ 0 then 4 else 0
  let mods : Word := (modsShift ||| modsAlt) ||| modsCtrl
  let base := btn &&& 3
  let rowZero := if (0 : Word).sle (row - 1) then row - 1 else 0
  let colZero := if (0 : Word).sle (col - 1) then col - 1 else 0
  if btn &&& 64 ≠ 0 then makeMouseEvent (if base = 1 then 7 else 6) mods rowZero colZero
  else if release then makeMouseEvent 4 mods rowZero colZero
  else if btn &&& 32 ≠ 0 then makeMouseEvent 5 mods rowZero colZero
  else if base = 0 then makeMouseEvent 1 mods rowZero colZero
  else if base = 1 then makeMouseEvent 2 mods rowZero colZero
  else if base = 2 then makeMouseEvent 3 mods rowZero colZero
  else makeMouseEvent 4 mods rowZero colZero

/-- `loop` of `cn_term_parse_mouse_sgr`, with what its slots hold. -/
def mouseLoop (stage : Nat) (current : Word) (digit : Bool) (btn col : Word) :
    Text → Event × Text
  | [] => (unknown, [])
  | ch :: input =>
      if isDigit ch then mouseLoop stage (addDigit current ch) true btn col input
      else if ch = semicolon then
        if digit then
          if stage = 0 then mouseLoop 1 0 false current col input
          else if stage = 1 then mouseLoop 2 0 false btn current input
          else (unknown, input)
        else (unknown, input)
      else if ch = 77 ∨ ch = 109 then
        if digit then
          if stage = 2 then (mouseEvent (ch = 109) btn col current, input) else (unknown, input)
        else (unknown, input)
      else (unknown, input)

def parseMouseSgr (input : Text) : Event × Text := mouseLoop 0 0 false 0 0 input

/-- The letters that end a sequence, with the code of their key. -/
def csiLetters : List (UInt8 × Word) :=
  [(65, 260), (66, 261), (67, 263), (68, 262), (72, 264), (70, 265)]

/-- `dispatch.tilde` but for the paste. -/
def csiTildes : List (Word × Word) :=
  [(2, 268), (3, 269), (5, 266), (6, 267), (15, 294), (17, 295), (18, 296), (19, 297), (20, 298),
    (21, 299), (23, 300), (24, 301)]

def csiDispatch (final : UInt8) (param1 param2 : Word) : Event :=
  let mods := csiModifiers param2
  match csiLetters.lookup final with
  | some code => makeKeyEvent code mods
  | none =>
      if final = 126 then
        if param1 = 200 then makePasteEvent
        else match csiTildes.lookup param1 with
          | some code => makeKeyEvent code mods
          | none => unknown
      else unknown

def csiFinalize (final : UInt8) (param1 current : Word) (parsing2 digit : Bool) : Event :=
  if parsing2 then csiDispatch final param1 (if digit then current else 1)
  else csiDispatch final (if digit then current else param1) 1

/-- `loop` of `cn_term_parse_csi`, with what its slots hold. -/
def csiLoop (param1 current : Word) (parsing2 digit : Bool) : Text → Event × Text
  | [] => (unknown, [])
  | ch :: input =>
      if ch = 60 then parseMouseSgr input
      else if isDigit ch then csiLoop param1 (addDigit current ch) parsing2 true input
      else if ch = semicolon then
        if parsing2 then (unknown, input)
        else csiLoop (if digit then current else 1) 0 true false input
      else (csiFinalize ch param1 current parsing2 digit, input)

def parseCsi (first : UInt8) (input : Text) : Event × Text :=
  csiLoop 0 0 false false (first :: input)

/-- The letters of `cn_term_parse_ss3`. -/
def ss3Letters : List (UInt8 × Word) :=
  [(65, 260), (66, 261), (67, 263), (68, 262), (72, 264), (70, 265), (80, 290), (81, 291),
    (82, 292), (83, 293)]

def parseSs3 (first : UInt8) : Event :=
  match ss3Letters.lookup first with
  | some code => makeKeyEvent code 0
  | none => unknown

def escapeKey : Event := makeKeyEvent 256 0

def escapeDispatch (next : UInt8) (input : Text) : Option Event × Text :=
  if next = 91 then
    match input with
    | [] => (some escapeKey, [])
    | csi :: input =>
        let (event, input) := parseCsi csi input
        (some event, input)
  else if next = 79 then
    match input with
    | [] => (some escapeKey, [])
    | ss3 :: input => (some (parseSs3 ss3), input)
  else decodeSimpleByte next 2 input

/-- `read.first` of `cn_term_read_event` and what follows. -/
def readInput : Text → Option Event × Text
  | [] => (none, [])
  | byte :: input =>
      if byte = 27 then
        match input with
        | [] => (some escapeKey, [])
        | next :: input => escapeDispatch next input
      else decodeSimpleByte byte 0 input

/-- `cn_term_read_event`; `resize` is what `cn_term_poll_resize_event` answers. -/
def readEvent (resize : Option Event) (input : Text) : Option Event × Text :=
  match resize with
  | some event => (some event, input)
  | none => readInput input

def readEvents : List (Option Event) → Text → List (Option Event) × Text
  | [], input => ([], input)
  | resize :: polls, input =>
      let (event, input) := readEvent resize input
      let (events, input) := readEvents polls input
      (event :: events, input)

/-! The units of the stream. -/

inductive IsKey : Text → Prop
  | plain {byte : UInt8} (hescape : byte ≠ 27) (hlead : ¬ (194 ≤ byte ∧ byte ≤ 244)) :
      IsKey [byte]
  | char {bytes : Text} (hwell : Library.Utf8.WellFormed (bytes.map UInt8.toNat))
      (hlong : 1 < bytes.length) : IsKey bytes

/-- The byte behind `ESC` in a unit of two does not introduce another kind of unit. -/
inductive IsUnit : Text → Prop
  | key {bytes : Text} (hkey : IsKey bytes) : IsUnit bytes
  | alt {bytes : Text} (hkey : IsKey bytes) (hcsi : bytes ≠ [91]) (hss3 : bytes ≠ [79]) :
      IsUnit (27 :: bytes)
  | ss3 (final : UInt8) : IsUnit [27, 79, final]
  | csi (params : Text) (final : UInt8) (hparams : ∀ ch ∈ params, 32 ≤ ch ∧ ch ≤ 63)
      (hfinal : 64 ≤ final ∧ final ≤ 126) : IsUnit (27 :: 91 :: (params ++ [final]))

structure InputUnit where
  bytes : Text
  isUnit : IsUnit bytes

def streamOf (units : List InputUnit) : Text := (units.map InputUnit.bytes).flatten

end Input

end Cnegative
