import Cnegative.Lex.Token

namespace Cnegative

namespace Lex

/-! `lexer.c`: the scanner over the bytes of one source. -/

/-- `cn_lexer`, without its diagnostics. -/
structure Lexer where
  source : Text
  index : Nat
  line : Nat
  column : Nat
  deriving DecidableEq, Repr

/-- `cn_diagnostic` as the lexer emits it. -/
structure Diagnostic where
  code : String
  offset : Nat
  message : Text
  deriving DecidableEq, Repr

def newline : UInt8 := '\n'.toUInt8
def quote : UInt8 := '"'.toUInt8
def backtick : UInt8 := '`'.toUInt8
def backslash : UInt8 := '\\'.toUInt8
def slash : UInt8 := '/'.toUInt8
def equals : UInt8 := '='.toUInt8
def period : UInt8 := '.'.toUInt8
def ampersand : UInt8 := '&'.toUInt8
def bar : UInt8 := '|'.toUInt8

def isWhitespace (ch : UInt8) : Bool :=
  ch == ' '.toUInt8 || ch == '\t'.toUInt8 || ch == '\r'.toUInt8 || ch == newline

/-- The byte at an index, and the NUL that stands for the end. -/
def byteAt (source : Text) (index : Nat) : UInt8 :=
  source[index]?.getD 0

def slice (source : Text) (start length : Nat) : Text :=
  (source.drop start).take length

namespace Lexer

def peek (lexer : Lexer) : UInt8 :=
  byteAt lexer.source lexer.index

def peekNext (lexer : Lexer) : UInt8 :=
  byteAt lexer.source (lexer.index + 1)

/-- `cn_lexer_advance`; the value it returns is `peek`. -/
def advance (lexer : Lexer) : Lexer :=
  if lexer.peek == 0 then lexer
  else if lexer.peek == newline then
    { lexer with index := lexer.index + 1, line := lexer.line + 1, column := 1 }
  else
    { lexer with index := lexer.index + 1, column := lexer.column + 1 }

/-- `cn_lexer_match`. -/
def accept (lexer : Lexer) (expected : UInt8) : Bool × Lexer :=
  if lexer.peek != expected then (false, lexer) else (true, lexer.advance)

/-- `cn_lexer_emit` for the token that starts where `start` stands. -/
def token (start : Lexer) (kind : TokenKind) (length : Nat) : Token :=
  ⟨kind, start.index, start.line, start.column, slice start.source start.index length⟩

@[simp] theorem advance_source (lexer : Lexer) : lexer.advance.source = lexer.source := by
  unfold advance
  split
  · rfl
  · split <;> rfl

theorem advance_index {lexer : Lexer} (hpeek : lexer.peek ≠ 0) :
    lexer.advance.index = lexer.index + 1 := by
  unfold advance
  rw [if_neg (by simpa using hpeek)]
  split <;> rfl

theorem index_lt_of_peek {lexer : Lexer} (hpeek : lexer.peek ≠ 0) :
    lexer.index < lexer.source.length := by
  by_contra hge
  apply hpeek
  rw [peek, byteAt, List.getElem?_eq_none (by omega), Option.getD_none]

theorem advance_measure {lexer : Lexer} (hpeek : lexer.peek ≠ 0) :
    lexer.advance.source.length - lexer.advance.index < lexer.source.length - lexer.index := by
  have hlt := index_lt_of_peek hpeek
  rw [advance_index hpeek, advance_source]
  omega

/-- The loop over a `//` comment. -/
def skipComment (lexer : Lexer) : Lexer :=
  if _hmore : lexer.peek ≠ 0 ∧ lexer.peek ≠ newline then skipComment lexer.advance else lexer
termination_by lexer.source.length - lexer.index
decreasing_by exact advance_measure _hmore.1

@[simp] theorem skipComment_source (lexer : Lexer) :
    lexer.skipComment.source = lexer.source := by
  induction lexer using skipComment.induct with
  | case1 lexer h ih => rw [skipComment, dif_pos h, ih, advance_source]
  | case2 lexer h => rw [skipComment, dif_neg h]

theorem index_le_skipComment (lexer : Lexer) : lexer.index ≤ lexer.skipComment.index := by
  induction lexer using skipComment.induct with
  | case1 lexer h ih =>
      rw [skipComment, dif_pos h]
      rw [advance_index h.1] at ih
      omega
  | case2 lexer h =>
      have hsame : lexer.skipComment = lexer := by rw [skipComment, dif_neg h]
      exact Nat.le_of_eq (congrArg Lexer.index hsame.symm)

theorem skipComment_lt {lexer : Lexer} (hpeek : lexer.peek = slash) :
    lexer.index < lexer.skipComment.index := by
  have hne : lexer.peek ≠ 0 ∧ lexer.peek ≠ newline := by
    rw [hpeek]
    decide
  have hle := index_le_skipComment lexer.advance
  rw [skipComment, dif_pos hne]
  rw [advance_index hne.1] at hle
  omega

theorem isWhitespace_ne_zero {ch : UInt8} (hch : isWhitespace ch = true) : ch ≠ 0 := by
  rintro rfl
  revert hch
  decide

def skipWhitespace (lexer : Lexer) : Lexer :=
  if _hspace : isWhitespace lexer.peek then skipWhitespace lexer.advance
  else if _hcomment : lexer.peek = slash ∧ lexer.peekNext = slash then
    skipWhitespace lexer.skipComment
  else lexer
termination_by lexer.source.length - lexer.index
decreasing_by
  · exact advance_measure (isWhitespace_ne_zero _hspace)
  · have hlt := skipComment_lt _hcomment.1
    have hpeek : lexer.peek ≠ 0 := by
      rw [_hcomment.1]
      decide
    have hindex := index_lt_of_peek hpeek
    rw [skipComment_source]
    omega

end Lexer

/-- `cn_scan_number_tail` and `cn_scan_identifier_tail`: the loops of
`scan_fallback.c`, which differ in the class of bytes. -/
def scanTail (inClass : UInt8 → Bool) (source : Text) (index : Nat) : Nat :=
  if _hmore : index < source.length ∧ inClass (byteAt source index) = true then
    scanTail inClass source (index + 1)
  else index
termination_by source.length - index

def isIdentifierContinue (ch : UInt8) : Bool :=
  ch == underscore || isAsciiDigit ch || isAsciiAlpha ch

/-- What one iteration of the main loop appends. -/
inductive Emitted where
  | token (token : Token)
  | diagnostic (diagnostic : Diagnostic)
  deriving DecidableEq, Repr

namespace Lexer

/-- Moves to the end of a tail, as `cn_lexer_scan_number` does. -/
def moveTo (lexer : Lexer) (stop : Nat) : Lexer :=
  { lexer with index := stop, column := lexer.column + (stop - lexer.index) }

def scanNumber (start lexer : Lexer) : Emitted × Lexer :=
  let next := lexer.moveTo (scanTail isAsciiDigit lexer.source lexer.index)
  (.token (start.token .intLiteral (next.index - start.index)), next)

def scanIdentifier (start lexer : Lexer) : Emitted × Lexer :=
  let next := lexer.moveTo (scanTail isIdentifierContinue lexer.source lexer.index)
  let length := next.index - start.index
  (.token (start.token (keywordKind (slice start.source start.index length)) length), next)

def unterminated (start : Lexer) (message : String) : Emitted :=
  .diagnostic ⟨"E1005", start.index, Name.text message⟩

/-- The string token that both kinds of literal push once the closing quote is met. -/
def stringToken (start content : Lexer) (stop : Nat) : Emitted :=
  .token ⟨.stringLiteral, start.index, start.line, start.column,
    slice start.source content.index (stop - content.index)⟩

/-- The step over `\` of `cn_lexer_scan_string`. -/
def skipEscape (lexer : Lexer) : Lexer :=
  if lexer.peek == backslash && lexer.peekNext != 0 then lexer.advance else lexer

theorem skipEscape_spec (lexer : Lexer) (hpeek : lexer.peek ≠ 0) :
    lexer.skipEscape.source = lexer.source ∧ lexer.index ≤ lexer.skipEscape.index ∧
      lexer.skipEscape.peek ≠ 0 := by
  unfold skipEscape
  split
  · rename_i hescape
    simp only [Bool.and_eq_true, beq_iff_eq, bne_iff_ne, ne_eq] at hescape
    refine ⟨advance_source _, by rw [advance_index hpeek]; omega, ?_⟩
    rw [peek, advance_source, advance_index hpeek]
    exact hescape.2
  · exact ⟨rfl, Nat.le_refl _, hpeek⟩

/-- The loop of `cn_lexer_scan_string`; the flag says that it returned at a newline. -/
def scanStringBody (lexer : Lexer) : Bool × Lexer :=
  if _hmore : lexer.peek ≠ 0 ∧ lexer.peek ≠ quote then
    if lexer.peek = newline then (true, lexer)
    else scanStringBody lexer.skipEscape.advance
  else (false, lexer)
termination_by lexer.source.length - lexer.index
decreasing_by
  obtain ⟨hsource, hindex, hpeek⟩ := skipEscape_spec lexer _hmore.1
  have hmeasure := advance_measure hpeek
  rw [hsource] at hmeasure
  omega

def scanString (start lexer : Lexer) : Emitted × Lexer :=
  let body := scanStringBody lexer
  if body.1 then (start.unterminated "unterminated string literal", body.2)
  else if body.2.peek ≠ quote then (start.unterminated "unterminated string literal", body.2)
  else (start.stringToken lexer body.2.index, body.2.advance)

def scanRawStringBody (lexer : Lexer) : Lexer :=
  if _hmore : lexer.peek ≠ 0 ∧ lexer.peek ≠ backtick then scanRawStringBody lexer.advance else lexer
termination_by lexer.source.length - lexer.index
decreasing_by exact advance_measure _hmore.1

def scanRawString (start lexer : Lexer) : Emitted × Lexer :=
  let stop := scanRawStringBody lexer
  if stop.peek ≠ backtick then (start.unterminated "unterminated raw string literal", stop)
  else (start.stringToken lexer stop.index, stop.advance)

end Lexer

/-- The order in which C evaluates the call of `cn_lexer_match` and the read of
`lexer->index` among the arguments of one `cn_lexer_emit`. -/
inductive ArgumentOrder where
  | matchFirst
  | indexFirst
  deriving DecidableEq, Repr

namespace Lexer

/-- The cases `!`, `=`, `<` and `>`: the kind and the length are sibling arguments. -/
def scanOperator (order : ArgumentOrder) (start lexer : Lexer) (wide narrow : TokenKind) :
    Emitted × Lexer :=
  let matched := lexer.accept equals
  let length :=
    match order with
    | .matchFirst => matched.2.index - start.index
    | .indexFirst => lexer.index - start.index
  (.token (start.token (if matched.1 then wide else narrow) length), matched.2)

/-- The cases `&` and `|`, which have no token of one byte. -/
def scanPair (start lexer : Lexer) (ch : UInt8) (kind : TokenKind) : Emitted × Lexer :=
  let matched := lexer.accept ch
  if matched.1 then (.token (start.token kind 2), matched.2)
  else (.diagnostic ⟨"E1004", start.index,
    Name.text "unexpected character '" ++ [ch] ++ Name.text "'"⟩, matched.2)

end Lexer

/-- The cases of the switch that emit one byte. -/
def punctuation (ch : UInt8) : Option TokenKind :=
  match Char.ofNat ch.toNat with
  | '(' => some .lparen
  | ')' => some .rparen
  | '{' => some .lbrace
  | '}' => some .rbrace
  | '[' => some .lbracket
  | ']' => some .rbracket
  | ':' => some .colon
  | ';' => some .semicolon
  | ',' => some .comma
  | '+' => some .plus
  | '-' => some .minus
  | '*' => some .star
  | '/' => some .slash
  | '%' => some .percent
  | _ => none

/-- The cases of the switch that look for a following `=`. -/
def operator (ch : UInt8) : Option (TokenKind × TokenKind) :=
  match Char.ofNat ch.toNat with
  | '!' => some (.bangEqual, .bang)
  | '=' => some (.equalEqual, .equal)
  | '<' => some (.lessEqual, .less)
  | '>' => some (.greaterEqual, .greater)
  | _ => none

/-- The switch of `cn_lexer_run`, from the lexer in front of the token. -/
def scanToken (order : ArgumentOrder) (start : Lexer) : Emitted × Lexer :=
  let value := start.peek
  let lexer := start.advance
  match punctuation value with
  | some kind => (.token (start.token kind 1), lexer)
  | none =>
    match operator value with
    | some (wide, narrow) => start.scanOperator order lexer wide narrow
    | none =>
      if value = period then
        let matched := lexer.accept period
        (.token (if matched.1 then start.token .range 2 else start.token .dot 1), matched.2)
      else if value = ampersand then start.scanPair lexer ampersand .ampAmp
      else if value = bar then start.scanPair lexer bar .pipePipe
      else if value = quote then start.scanString lexer
      else if value = backtick then start.scanRawString lexer
      else if isAsciiDigit value then start.scanNumber lexer
      else if isAsciiAlpha value || value = underscore then start.scanIdentifier lexer
      else (.diagnostic ⟨"E1004", start.index,
        Name.text "unexpected character '" ++ [value] ++ Name.text "'"⟩, lexer)

/-- One iteration: the bytes it consumed and what it appended. -/
structure Scan where
  start : Nat
  stop : Nat
  emitted : Emitted
  deriving DecidableEq, Repr

/-- The loop of `cn_lexer_run`, for at most `fuel` tests of its condition; `order` gives
the evaluation order of the call that emits a token at an offset. -/
def scanAll (order : Nat → ArgumentOrder) : Nat → Lexer → Option (List Scan × Lexer)
  | 0, _ => none
  | fuel + 1, lexer =>
      if lexer.index < lexer.source.length then
        let start := lexer.skipWhitespace
        if start.source.length ≤ start.index then some ([], start)
        else
          let scanned := scanToken (order start.index) start
          match scanAll order fuel scanned.2 with
          | none => none
          | some (scans, final) =>
              some (⟨start.index, scanned.2.index, scanned.1⟩ :: scans, final)
      else some ([], lexer)

structure Output where
  scans : List Scan
  final : Lexer
  deriving DecidableEq, Repr

namespace Output

def scanned (output : Output) : List Token :=
  output.scans.filterMap fun scan =>
    match scan.emitted with
    | .token token => some token
    | .diagnostic _ => none

def diagnostics (output : Output) : List Diagnostic :=
  output.scans.filterMap fun scan =>
    match scan.emitted with
    | .token _ => none
    | .diagnostic diagnostic => some diagnostic

/-- The token buffer, with the token pushed behind the loop. -/
def tokens (output : Output) : List Token :=
  output.scanned ++
    [⟨.eof, output.final.source.length, output.final.line, output.final.column, []⟩]

/-- What `cn_lexer_run` returns for a diagnostics bag that was empty. -/
def succeeded (output : Output) : Bool :=
  output.diagnostics.isEmpty

end Output

def lexerInit (source : Text) : Lexer :=
  ⟨source, 0, 1, 1⟩

def lexerRun (order : Nat → ArgumentOrder) (source : Text) (fuel : Nat) : Option Output :=
  (scanAll order fuel (lexerInit source)).map fun run => ⟨run.1, run.2⟩

end Lex

end Cnegative
