import Cnegative.Syntax.Ast

namespace Cnegative

/-! Byte strings, as the lexer reads and the backend writes them. -/

/-- The bytes of a `cn_strview`. -/
abbrev Text := List UInt8

def Name.text (name : Name) : Text :=
  name.toUTF8.data.toList

def isAsciiAlpha (ch : UInt8) : Bool :=
  ('A'.toUInt8 ≤ ch && ch ≤ 'Z'.toUInt8) || ('a'.toUInt8 ≤ ch && ch ≤ 'z'.toUInt8)

def isAsciiDigit (ch : UInt8) : Bool :=
  '0'.toUInt8 ≤ ch && ch ≤ '9'.toUInt8

def underscore : UInt8 := '_'.toUInt8

end Cnegative
