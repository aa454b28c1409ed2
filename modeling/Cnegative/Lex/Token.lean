import Cnegative.Syntax.Text

namespace Cnegative

inductive TokenKind where
  | eof | identifier | intLiteral | stringLiteral
  | «true» | «false» | null
  | fn | pfn | const | pconst | «let» | «mut» | «return» | «if» | «else» | «while» | loop
  | «for» | «in» | struct | pstruct | «import» | as
  | int | u8 | byte | bool | str | void | result | ok | err
  | ptr | alloc | zalloc | addr | deref | free | defer | «try» | zone | slice
  | lparen | rparen | lbrace | rbrace | lbracket | rbracket
  | colon | semicolon | comma | dot | range
  | plus | minus | star | slash | percent
  | bang | equal | equalEqual | bangEqual
  | less | lessEqual | greater | greaterEqual | ampAmp | pipePipe
  deriving DecidableEq, Repr

/-- `cn_token`; the lexeme stands as its bytes. -/
structure Token where
  kind : TokenKind
  offset : Nat
  line : Nat
  column : Nat
  lexeme : Text
  deriving DecidableEq, Repr

/-- The comparisons of `cn_keyword_kind`, in its order. -/
def keywords : List (Name × TokenKind) := [
  ("fn", .fn), ("pfn", .pfn), ("const", .const), ("pconst", .pconst), ("let", .let),
  ("mut", .mut), ("return", .return), ("if", .if), ("else", .else), ("while", .while),
  ("loop", .loop), ("for", .for), ("in", .in), ("struct", .struct), ("pstruct", .pstruct),
  ("import", .import), ("as", .as), ("int", .int), ("u8", .u8), ("byte", .byte),
  ("bool", .bool), ("str", .str), ("void", .void), ("ok", .ok), ("err", .err), ("ptr", .ptr),
  ("alloc", .alloc), ("zalloc", .zalloc), ("addr", .addr), ("deref", .deref), ("free", .free),
  ("defer", .defer), ("try", .try), ("zone", .zone), ("slice", .slice), ("true", .true),
  ("false", .false), ("null", .null)]

def keywordKind (text : Text) : TokenKind :=
  match keywords.find? (fun keyword => Name.text keyword.1 == text) with
  | some keyword => keyword.2
  | none => .identifier

end Cnegative
