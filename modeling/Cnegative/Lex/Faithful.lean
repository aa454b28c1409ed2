import Cnegative.Lex.Tiling

namespace Cnegative

namespace Lex

open Library (Tiled)

/-! The sources on which every order of evaluation lexes the same. -/

/-- Where a position of a source stands. -/
inductive Mode where
  | code
  | comment
  | string
  | escaped
  | raw
  deriving DecidableEq, Repr

/-- The bytes that begin an operator of one or two bytes. -/
def isOperatorStart (ch : UInt8) : Bool :=
  ch == '!'.toUInt8 || ch == '='.toUInt8 || ch == '<'.toUInt8 || ch == '>'.toUInt8

/-- One of `! = < >` directly in front of a `=`, outside of strings and comments. -/
def hasWideOperator : Mode → Text → Bool
  | _, [] => false
  | .code, ch :: rest =>
      if ch = quote then hasWideOperator .string rest
      else if ch = backtick then hasWideOperator .raw rest
      else if ch = slash ∧ rest.head? = some slash then hasWideOperator .comment rest
      else if isOperatorStart ch = true ∧ rest.head? = some equals then true
      else hasWideOperator .code rest
  | .comment, ch :: rest =>
      if ch = newline then hasWideOperator .code rest else hasWideOperator .comment rest
  | .string, ch :: rest =>
      if ch = quote ∨ ch = newline then hasWideOperator .code rest
      else if ch = backslash then hasWideOperator .escaped rest
      else hasWideOperator .string rest
  | .escaped, _ :: rest => hasWideOperator .string rest
  | .raw, ch :: rest =>
      if ch = backtick then hasWideOperator .code rest else hasWideOperator .raw rest

structure Lexable (source : Text) : Prop where
  nulFree : ∀ ch ∈ source, ch ≠ 0
  narrow : hasWideOperator .code source = false

/-! Bytes. -/

theorem forall_byte (test : UInt8 → Bool)
    (hall : (List.range 256).all (fun value => test (UInt8.ofNat value)) = true) (ch : UInt8) :
    test ch = true := by
  have hvalue := List.all_eq_true.mp hall ch.toNat (List.mem_range.mpr ch.toNat_lt)
  rwa [UInt8.ofNat_toNat] at hvalue

/-- Bytes that only stand for themselves. -/
def isOrdinary (ch : UInt8) : Bool :=
  ch != quote && ch != backtick && ch != slash && !isOperatorStart ch

/-- Kinds whose lexeme is what was consumed. -/
def isPlainKind (kind : TokenKind) : Bool :=
  kind != .eof && kind != .stringLiteral

theorem punctuation_plain {ch : UInt8} {kind : TokenKind} (hkind : punctuation ch = some kind) :
    isPlainKind kind = true ∧ ch ≠ quote ∧ ch ≠ backtick ∧ isOperatorStart ch = false := by
  have hbyte := forall_byte (fun ch => (punctuation ch).all fun kind =>
    isPlainKind kind && ch != quote && ch != backtick && !isOperatorStart ch)
    (by decide +kernel) ch
  simpa [hkind, and_assoc] using hbyte

theorem operator_plain {ch : UInt8} {kinds : TokenKind × TokenKind}
    (hkinds : operator ch = some kinds) :
    isPlainKind kinds.1 = true ∧ isPlainKind kinds.2 = true ∧ ch ≠ quote ∧ ch ≠ backtick ∧
      ch ≠ slash ∧ isOperatorStart ch = true := by
  have hbyte := forall_byte (fun ch => (operator ch).all fun kinds =>
    isPlainKind kinds.1 && isPlainKind kinds.2 && ch != quote && ch != backtick &&
      ch != slash && isOperatorStart ch) (by decide +kernel) ch
  simpa [hkinds, and_assoc] using hbyte

theorem ordinary_of_cases {ch : UInt8} (hpunctuation : punctuation ch = none)
    (hoperator : operator ch = none) (hquote : ch ≠ quote) (hbacktick : ch ≠ backtick) :
    isOrdinary ch = true := by
  have hbyte := forall_byte (fun ch =>
    (punctuation ch).isSome || (operator ch).isSome || ch == quote || ch == backtick ||
      isOrdinary ch) (by decide +kernel) ch
  simpa [hpunctuation, hoperator, hquote, hbacktick] using hbyte

theorem isOrdinary_identifier {ch : UInt8} (hch : isIdentifierContinue ch = true) :
    isOrdinary ch = true := by
  have hbyte := forall_byte (fun ch => !isIdentifierContinue ch || isOrdinary ch)
    (by decide +kernel) ch
  simpa [hch] using hbyte

theorem isOrdinary_digit {ch : UInt8} (hch : isAsciiDigit ch = true) : isOrdinary ch = true := by
  refine isOrdinary_identifier ?_
  rw [isIdentifierContinue, hch, Bool.or_true, Bool.true_or]

theorem isPlainKind_keywordKind (text : Text) : isPlainKind (keywordKind text) = true := by
  unfold keywordKind
  cases hfind : keywords.find? (fun keyword => Name.text keyword.1 == text) with
  | none => rfl
  | some keyword =>
      have hall : ∀ keyword ∈ keywords, isPlainKind keyword.2 = true := by
        decide
      exact hall keyword (List.mem_of_find?_eq_some hfind)

/-! The text behind a position, read in a mode. -/

def ahead (mode : Mode) (source : Text) (index : Nat) : Bool :=
  hasWideOperator mode (source.drop index)

theorem drop_eq_cons {source : Text} {index : Nat} (hlt : index < source.length) :
    source.drop index = byteAt source index :: source.drop (index + 1) := by
  rw [List.drop_eq_getElem_cons hlt, byteAt, List.getElem?_eq_getElem hlt, Option.getD_some]

theorem head?_drop_eq {source : Text} {index : Nat} {ch : UInt8} (hch : ch ≠ 0) :
    (source.drop index).head? = some ch ↔ byteAt source index = ch := by
  rw [List.head?_drop, byteAt]
  cases source[index]? with
  | none => simp [Ne.symm hch]
  | some other => simp

theorem ahead_end (mode : Mode) {source : Text} {index : Nat} (hle : source.length ≤ index) :
    ahead mode source index = false := by
  rw [ahead, List.drop_eq_nil_of_le hle]
  cases mode <;> rfl

theorem ahead_code {source : Text} {index : Nat} (hlt : index < source.length) :
    ahead .code source index =
      if byteAt source index = quote then ahead .string source (index + 1)
      else if byteAt source index = backtick then ahead .raw source (index + 1)
      else if byteAt source index = slash ∧ byteAt source (index + 1) = slash then
        ahead .comment source (index + 1)
      else if isOperatorStart (byteAt source index) = true ∧
          byteAt source (index + 1) = equals then true
      else ahead .code source (index + 1) := by
  have hslash : (source.drop (index + 1)).head? = some slash ↔
      byteAt source (index + 1) = slash := head?_drop_eq (by decide)
  have hequals : (source.drop (index + 1)).head? = some equals ↔
      byteAt source (index + 1) = equals := head?_drop_eq (by decide)
  simp only [ahead, drop_eq_cons hlt, hasWideOperator, hslash, hequals]

theorem ahead_comment {source : Text} {index : Nat} (hlt : index < source.length) :
    ahead .comment source index =
      if byteAt source index = newline then ahead .code source (index + 1)
      else ahead .comment source (index + 1) := by
  rw [ahead, drop_eq_cons hlt]
  rfl

theorem ahead_string {source : Text} {index : Nat} (hlt : index < source.length) :
    ahead .string source index =
      if byteAt source index = quote ∨ byteAt source index = newline then
        ahead .code source (index + 1)
      else if byteAt source index = backslash then ahead .escaped source (index + 1)
      else ahead .string source (index + 1) := by
  rw [ahead, drop_eq_cons hlt]
  rfl

theorem ahead_escaped {source : Text} {index : Nat} (hlt : index < source.length) :
    ahead .escaped source index = ahead .string source (index + 1) := by
  rw [ahead, drop_eq_cons hlt]
  rfl

theorem ahead_raw {source : Text} {index : Nat} (hlt : index < source.length) :
    ahead .raw source index =
      if byteAt source index = backtick then ahead .code source (index + 1)
      else ahead .raw source (index + 1) := by
  rw [ahead, drop_eq_cons hlt]
  rfl

theorem ahead_ordinary {source : Text} {index : Nat} (hlt : index < source.length)
    (hordinary : isOrdinary (byteAt source index) = true) :
    ahead .code source index = ahead .code source (index + 1) := by
  simp only [isOrdinary, Bool.and_eq_true, bne_iff_ne, ne_eq, Bool.not_eq_true'] at hordinary
  obtain ⟨⟨⟨hquote, hbacktick⟩, hslash⟩, hstart⟩ := hordinary
  rw [ahead_code hlt, if_neg hquote, if_neg hbacktick, if_neg (fun h => hslash h.1),
    if_neg (fun h => absurd h.1 (by simp [hstart]))]

/-! The scanners in front of a source without a NUL. -/

def NulFree (source : Text) : Prop :=
  ∀ ch ∈ source, ch ≠ 0

theorem NulFree.byteAt_ne {source : Text} (hfree : NulFree source) {index : Nat}
    (hlt : index < source.length) : byteAt source index ≠ 0 := by
  rw [byteAt, List.getElem?_eq_getElem hlt, Option.getD_some]
  exact hfree _ (List.getElem_mem hlt)

theorem NulFree.length_le {source : Text} (hfree : NulFree source) {index : Nat}
    (hzero : byteAt source index = 0) : source.length ≤ index := by
  by_contra hlt
  exact hfree.byteAt_ne (by omega) hzero

namespace Lexer

theorem skipComment_spec {lexer : Lexer} (hfree : NulFree lexer.source) :
    ahead .comment lexer.source lexer.index =
        ahead .code lexer.source lexer.skipComment.index ∧
      ∀ position, lexer.index ≤ position → position < lexer.skipComment.index →
        byteAt lexer.source position ≠ newline := by
  induction lexer using skipComment.induct with
  | case1 lexer h ih =>
      rw [advance_source, advance_index h.1] at ih
      obtain ⟨hahead, hbytes⟩ := ih hfree
      rw [skipComment, dif_pos h]
      refine ⟨?_, fun position hle hlt => ?_⟩
      · have hne : byteAt lexer.source lexer.index ≠ newline := h.2
        rw [ahead_comment (index_lt_of_peek h.1), if_neg hne, hahead]
      · by_cases hfirst : position = lexer.index
        · rw [hfirst]
          exact h.2
        · exact hbytes position (by omega) hlt
  | case2 lexer h =>
      rw [skipComment, dif_neg h]
      refine ⟨?_, fun position hle hlt => by omega⟩
      by_cases hzero : lexer.peek = 0
      · rw [ahead_end _ (hfree.length_le hzero), ahead_end _ (hfree.length_le hzero)]
      · have hnewline : lexer.peek = newline := by
          by_contra hne
          exact h ⟨hzero, hne⟩
        have hbyte : byteAt lexer.source lexer.index = newline := hnewline
        rw [ahead_comment (index_lt_of_peek hzero), if_pos hbyte,
          ahead_ordinary (index_lt_of_peek hzero) (by rw [hbyte]; decide)]

theorem isOrdinary_whitespace {ch : UInt8} (hch : isWhitespace ch = true) :
    isOrdinary ch = true := by
  have hbyte := forall_byte (fun ch => !isWhitespace ch || isOrdinary ch)
    (by decide +kernel) ch
  simpa [hch] using hbyte

theorem skipWhitespace_spec {lexer : Lexer} (hfree : NulFree lexer.source) :
    ahead .code lexer.source lexer.index =
        ahead .code lexer.source lexer.skipWhitespace.index ∧
      Blank lexer.source lexer.index lexer.skipWhitespace.index ∧
      ¬ (lexer.skipWhitespace.peek = slash ∧ lexer.skipWhitespace.peekNext = slash) := by
  induction lexer using skipWhitespace.induct with
  | case1 lexer hspace ih =>
      have hpeek := isWhitespace_ne_zero hspace
      rw [advance_source, advance_index hpeek] at ih
      obtain ⟨hahead, hblank, hstops⟩ := ih hfree
      rw [skipWhitespace, dif_pos hspace]
      refine ⟨?_, fun index hle hlt => ?_, hstops⟩
      · rw [ahead_ordinary (index_lt_of_peek hpeek) (isOrdinary_whitespace hspace), hahead]
      · by_cases hfirst : index = lexer.index
        · rw [hfirst]
          exact Or.inl hspace
        · rcases hblank index (by omega) hlt with hwhite | ⟨comment, hcomment, hin⟩
          · exact Or.inl hwhite
          · exact Or.inr ⟨comment, by omega, hin⟩
  | case2 lexer hspace hcomment ih =>
      have hpeek : lexer.peek ≠ 0 := by
        rw [hcomment.1]
        decide
      obtain ⟨hskipped, hbytes⟩ := skipComment_spec hfree
      rw [skipComment_source] at ih
      obtain ⟨hahead, hblank, hstops⟩ := ih hfree
      rw [skipWhitespace, dif_neg hspace, dif_pos hcomment]
      have hbyte : byteAt lexer.source lexer.index = slash := hcomment.1
      refine ⟨?_, fun index hle hlt => ?_, hstops⟩
      · rw [← hahead, ← hskipped, ahead_code (index_lt_of_peek hpeek), hbyte,
          if_neg (by decide), if_neg (by decide), if_pos ⟨rfl, hcomment.2⟩,
          ahead_comment (index_lt_of_peek hpeek), hbyte, if_neg (by decide)]
      · by_cases hinside : index < lexer.skipComment.index
        · refine Or.inr ⟨lexer.index, Nat.le_refl _, hle, hcomment.1, hcomment.2, ?_⟩
          exact fun position hfrom hto => hbytes position hfrom (by omega)
        · rcases hblank index (by omega) hlt with hwhite | ⟨comment, hfrom, hin⟩
          · exact Or.inl hwhite
          · have hle' := index_le_skipComment lexer
            exact Or.inr ⟨comment, by omega, hin⟩
  | case3 lexer hspace hcomment =>
      rw [skipWhitespace, dif_neg hspace, dif_neg hcomment]
      exact ⟨rfl, fun index hle hlt => by omega, hcomment⟩

end Lexer

theorem scanTail_ahead {inClass : UInt8 → Bool} {source : Text}
    (hordinary : ∀ ch, inClass ch = true → isOrdinary ch = true) (index : Nat) :
    ahead .code source index = ahead .code source (scanTail inClass source index) := by
  induction index using scanTail.induct inClass source with
  | case1 index hmore ih =>
      rw [scanTail, dif_pos hmore, ← ih]
      exact ahead_ordinary hmore.1 (hordinary _ hmore.2)
  | case2 index hmore => rw [scanTail, dif_neg hmore]

namespace Lexer

theorem skipEscape_ahead {lexer : Lexer} (hfree : NulFree lexer.source) (hpeek : lexer.peek ≠ 0)
    (hquote : lexer.peek ≠ quote) (hnewline : lexer.peek ≠ newline) :
    ahead .string lexer.source lexer.index =
      ahead .string lexer.source lexer.skipEscape.advance.index := by
  have hlt := index_lt_of_peek hpeek
  have hplain : ¬ (byteAt lexer.source lexer.index = quote ∨
      byteAt lexer.source lexer.index = newline) := not_or.mpr ⟨hquote, hnewline⟩
  obtain ⟨-, -, hescaped⟩ := skipEscape_spec lexer hpeek
  rw [advance_index hescaped, ahead_string hlt, if_neg hplain]
  by_cases hbackslash : byteAt lexer.source lexer.index = backslash
  · rw [if_pos hbackslash]
    by_cases hnext : lexer.peekNext = 0
    · have hstay : lexer.skipEscape = lexer := by
        rw [skipEscape, if_neg (by simp [hnext])]
      have hend : lexer.source.length ≤ lexer.index + 1 := hfree.length_le hnext
      rw [hstay, ahead_end _ hend, ahead_end _ hend]
    · have hstep : lexer.skipEscape = lexer.advance := by
        have hpeekEq : lexer.peek = backslash := hbackslash
        rw [skipEscape, if_pos (by simp [hnext, hpeekEq])]
      have hinside : lexer.index + 1 < lexer.source.length := by
        by_contra hge
        exact hnext (byteAt_length (by omega))
      rw [hstep, advance_index hpeek, ahead_escaped hinside]
  · have hstay : lexer.skipEscape = lexer := by
      have hpeekNe : lexer.peek ≠ backslash := hbackslash
      rw [skipEscape, if_neg (by simp [hpeekNe])]
    rw [if_neg hbackslash, hstay]

theorem scanStringBody_spec {lexer : Lexer} (hfree : NulFree lexer.source) :
    ahead .string lexer.source lexer.index =
        ahead .string lexer.source lexer.scanStringBody.2.index ∧
      (lexer.scanStringBody.1 = true → lexer.scanStringBody.2.peek = newline) ∧
      (lexer.scanStringBody.1 = false →
        lexer.scanStringBody.2.peek = 0 ∨ lexer.scanStringBody.2.peek = quote) := by
  induction lexer using scanStringBody.induct with
  | case1 lexer hmore hnewline =>
      rw [scanStringBody, dif_pos hmore, if_pos hnewline]
      exact ⟨rfl, fun _ => hnewline, fun h => absurd h (by simp)⟩
  | case2 lexer hmore hnewline ih =>
      rw [scanStringBody, dif_pos hmore, if_neg hnewline]
      rw [advance_source, (skipEscape_spec lexer hmore.1).1] at ih
      obtain ⟨hahead, hrest⟩ := ih hfree
      exact ⟨(skipEscape_ahead hfree hmore.1 hmore.2 hnewline).trans hahead, hrest⟩
  | case3 lexer hmore =>
      rw [scanStringBody, dif_neg hmore]
      refine ⟨rfl, fun h => absurd h (by simp), fun _ => ?_⟩
      by_contra hneither
      exact hmore (not_or.mp hneither)

theorem scanRawStringBody_spec (lexer : Lexer) :
    ahead .raw lexer.source lexer.index =
        ahead .raw lexer.source lexer.scanRawStringBody.index ∧
      (lexer.scanRawStringBody.peek = 0 ∨ lexer.scanRawStringBody.peek = backtick) := by
  induction lexer using scanRawStringBody.induct with
  | case1 lexer hmore ih =>
      rw [scanRawStringBody, dif_pos hmore]
      rw [advance_source, advance_index hmore.1] at ih
      have hne : byteAt lexer.source lexer.index ≠ backtick := hmore.2
      refine ⟨?_, ih.2⟩
      rw [ahead_raw (index_lt_of_peek hmore.1), if_neg hne, ih.1]
  | case2 lexer hmore =>
      rw [scanRawStringBody, dif_neg hmore]
      refine ⟨rfl, ?_⟩
      by_contra hneither
      exact hmore (not_or.mp hneither)

theorem accept_cases (lexer : Lexer) (expected : UInt8) :
    lexer.peek = expected ∧ lexer.accept expected = (true, lexer.advance) ∨
      lexer.peek ≠ expected ∧ lexer.accept expected = (false, lexer) := by
  by_cases hpeek : lexer.peek = expected
  · exact Or.inl ⟨hpeek, by simp [accept, hpeek]⟩
  · exact Or.inr ⟨hpeek, by simp [accept, hpeek]⟩

end Lexer

/-! What the switch can do. -/

def WideAt (source : Text) (index : Nat) : Prop :=
  isOperatorStart (byteAt source index) = true ∧ byteAt source (index + 1) = equals

/-- The outcome of the switch, with what stands behind the bytes it consumed. -/
inductive ScanCase (order : ArgumentOrder) (start : Lexer) : Emitted × Lexer → Prop
  | plain {kind : TokenKind} {length : Nat} {next : Lexer} (hkind : isPlainKind kind = true)
      (hnarrow : ¬ WideAt start.source start.index) (hlength : start.index + length = next.index)
      (hahead : ahead .code start.source start.index = ahead .code start.source next.index) :
      ScanCase order start (.token (start.token kind length), next)
  | wide {kind : TokenKind} {length : Nat} {next : Lexer} (hkind : isPlainKind kind = true)
      (hwide : WideAt start.source start.index) (hnext : next.index = start.index + 2)
      (hahead : ahead .code start.source start.index = true)
      (hlength : order = .indexFirst → length = 1) :
      ScanCase order start (.token (start.token kind length), next)
  | string {next content stop : Lexer} (hnarrow : ¬ WideAt start.source start.index)
      (hcontent : content.index = start.index + 1) (hle : content.index ≤ stop.index)
      (hnext : next.index = stop.index + 1)
      (hopen : byteAt start.source start.index = quote ∨
        byteAt start.source start.index = backtick)
      (hclose : byteAt start.source stop.index = byteAt start.source start.index)
      (hahead : ahead .code start.source start.index = ahead .code start.source next.index) :
      ScanCase order start (start.stringToken content stop.index, next)
  | unterminated {message : String} {next : Lexer} (hnarrow : ¬ WideAt start.source start.index)
      (hahead : ahead .code start.source start.index = ahead .code start.source next.index) :
      ScanCase order start (start.unterminated message, next)
  | invalid {message : Text} {next : Lexer} (hnarrow : ¬ WideAt start.source start.index)
      (hnext : next.index = start.index + 1)
      (hahead : ahead .code start.source start.index = ahead .code start.source next.index) :
      ScanCase order start (.diagnostic ⟨"E1004", start.index, message⟩, next)

theorem ahead_narrow {source : Text} {index : Nat} (hlt : index < source.length)
    (hquote : byteAt source index ≠ quote) (hbacktick : byteAt source index ≠ backtick)
    (hcomment : ¬ (byteAt source index = slash ∧ byteAt source (index + 1) = slash))
    (hnarrow : ¬ WideAt source index) :
    ahead .code source index = ahead .code source (index + 1) := by
  unfold WideAt at hnarrow
  rw [ahead_code hlt, if_neg hquote, if_neg hbacktick, if_neg hcomment, if_neg hnarrow]

theorem not_wideAt_of_start {source : Text} {index : Nat}
    (hstart : isOperatorStart (byteAt source index) = false) : ¬ WideAt source index := by
  intro hwide
  rw [WideAt, hstart] at hwide
  exact absurd hwide.1 (by simp)

theorem not_wideAt_of_ordinary {source : Text} {index : Nat}
    (hordinary : isOrdinary (byteAt source index) = true) : ¬ WideAt source index := by
  simp only [isOrdinary, Bool.and_eq_true, Bool.not_eq_true'] at hordinary
  exact not_wideAt_of_start hordinary.2

section Switch

variable {order : ArgumentOrder} {start : Lexer} (hfree : NulFree start.source)
  (hpeek : start.peek ≠ 0)

include hpeek

theorem scanOperator_case {kinds : TokenKind × TokenKind} (hkinds : operator start.peek = some kinds) :
    ScanCase order start (start.scanOperator order start.advance kinds.1 kinds.2) := by
  obtain ⟨hwideKind, hnarrowKind, hquote, hbacktick, hslash, hstart⟩ := operator_plain hkinds
  have hlt := Lexer.index_lt_of_peek hpeek
  have hindex := Lexer.advance_index hpeek
  have hbehind : start.advance.peek = byteAt start.source (start.index + 1) := by
    rw [Lexer.peek, Lexer.advance_source, hindex]
  unfold Lexer.peek at hquote hbacktick hslash hstart
  rcases Lexer.accept_cases start.advance equals with ⟨hmatch, haccept⟩ | ⟨hmatch, haccept⟩
  · have hwide : WideAt start.source start.index := ⟨hstart, hbehind ▸ hmatch⟩
    have hnext : start.advance.advance.index = start.index + 2 := by
      rw [Lexer.advance_index (by rw [hmatch]; decide), hindex]
    simp only [Lexer.scanOperator, haccept, if_true]
    refine .wide hwideKind hwide hnext ?_ ?_
    · unfold WideAt at hwide
      rw [ahead_code hlt, if_neg hquote, if_neg hbacktick, if_neg (fun h => hslash h.1),
        if_pos hwide]
    · rintro rfl
      simp only [hindex]
      omega
  · have hnarrow : ¬ WideAt start.source start.index := fun hwide => hmatch (hbehind ▸ hwide.2)
    simp only [Lexer.scanOperator, haccept, Bool.false_eq_true, if_false]
    refine .plain hnarrowKind hnarrow ?_ ?_
    · cases order <;> simp only [hindex] <;> omega
    · rw [hindex]
      exact ahead_narrow hlt hquote hbacktick (fun h => hslash h.1) hnarrow

theorem scanPunctuation_case {kind : TokenKind} (hkind : punctuation start.peek = some kind)
    (hcomment : ¬ (start.peek = slash ∧ start.peekNext = slash)) :
    ScanCase order start (.token (start.token kind 1), start.advance) := by
  obtain ⟨hplain, hquote, hbacktick, hstart⟩ := punctuation_plain hkind
  have hindex := Lexer.advance_index hpeek
  have hnarrow : ¬ WideAt start.source start.index := not_wideAt_of_start hstart
  refine .plain hplain hnarrow (by rw [hindex]) ?_
  rw [hindex]
  exact ahead_narrow (Lexer.index_lt_of_peek hpeek) hquote hbacktick hcomment hnarrow

theorem scanTwice_ahead {ch : UInt8} (hch : isOrdinary ch = true) (hfirst : start.peek = ch)
    (hsecond : start.advance.peek = ch) :
    ahead .code start.source start.index =
        ahead .code start.source start.advance.advance.index ∧
      start.index + 2 = start.advance.advance.index := by
  have hlt := Lexer.index_lt_of_peek hpeek
  have hindex := Lexer.advance_index hpeek
  have hnonzero : start.advance.peek ≠ 0 := by
    rw [hsecond, ← hfirst]
    exact hpeek
  have hnext := Lexer.advance_index hnonzero
  have hinside := Lexer.index_lt_of_peek hnonzero
  rw [Lexer.peek, Lexer.advance_source, hindex] at hsecond
  rw [hindex, Lexer.advance_source] at hinside
  refine ⟨?_, by rw [hnext, hindex]⟩
  rw [hnext, hindex, ahead_ordinary hlt (by rw [← Lexer.peek, hfirst]; exact hch),
    ahead_ordinary hinside (by rw [hsecond]; exact hch)]

theorem scanPair_case {ch : UInt8} {kind : TokenKind} (hkind : isPlainKind kind = true)
    (hch : isOrdinary ch = true) (hfirst : start.peek = ch) :
    ScanCase order start (start.scanPair start.advance ch kind) := by
  have hlt := Lexer.index_lt_of_peek hpeek
  have hindex := Lexer.advance_index hpeek
  have hordinary : isOrdinary (byteAt start.source start.index) = true := by
    rw [← Lexer.peek, hfirst]
    exact hch
  have hnarrow := not_wideAt_of_ordinary hordinary
  rcases Lexer.accept_cases start.advance ch with ⟨hmatch, haccept⟩ | ⟨hmatch, haccept⟩
  · obtain ⟨hahead, hlength⟩ := scanTwice_ahead hpeek hch hfirst hmatch
    simp only [Lexer.scanPair, haccept, if_true]
    exact .plain hkind hnarrow hlength hahead
  · simp only [Lexer.scanPair, haccept, Bool.false_eq_true, if_false]
    refine .invalid hnarrow hindex ?_
    rw [hindex]
    exact ahead_ordinary hlt hordinary

theorem scanTail_case {inClass : UInt8 → Bool} {kind : TokenKind} {next : Lexer}
    (hkind : isPlainKind kind = true) (hzero : inClass 0 = false)
    (hordinary : ∀ ch, inClass ch = true → isOrdinary ch = true)
    (hfirst : isOrdinary start.peek = true)
    (hnext : next = start.advance.moveTo
      (scanTail inClass start.advance.source start.advance.index)) :
    ScanCase order start (.token (start.token kind (next.index - start.index)), next) := by
  have hindex := Lexer.advance_index hpeek
  have hstop : next.index = scanTail inClass start.source (start.index + 1) := by
    rw [hnext, Lexer.moveTo, Lexer.advance_source, hindex]
  obtain ⟨hle, -, -⟩ := @scanTail_spec _ start.source hzero (start.index + 1)
  refine .plain hkind (not_wideAt_of_ordinary hfirst) (by omega) ?_
  rw [hstop, ahead_ordinary (Lexer.index_lt_of_peek hpeek) hfirst]
  exact scanTail_ahead hordinary _

include hfree

theorem scanString_case (hquote : start.peek = quote) :
    ScanCase order start (start.scanString start.advance) := by
  have hlt := Lexer.index_lt_of_peek hpeek
  have hindex := Lexer.advance_index hpeek
  have hopen : byteAt start.source start.index = quote := hquote
  have hnarrow : ¬ WideAt start.source start.index :=
    not_wideAt_of_start (by rw [hopen]; decide)
  have hmoves := (Lexer.drives_scanStringBody start.advance).moves
  have hsource : start.advance.scanStringBody.2.source = start.source := by
    rw [hmoves.source, Lexer.advance_source]
  obtain ⟨hbody, hreturned, hstopped⟩ :=
    @Lexer.scanStringBody_spec start.advance (by rw [Lexer.advance_source]; exact hfree)
  have henter : ahead .code start.source start.index =
      ahead .string start.source start.advance.scanStringBody.2.index := by
    rw [ahead_code hlt, if_pos hopen, ← hindex, ← Lexer.advance_source start, hbody]
  have hpeekEq : byteAt start.source start.advance.scanStringBody.2.index =
      start.advance.scanStringBody.2.peek := by
    rw [Lexer.peek, hsource]
  simp only [Lexer.scanString]
  cases hexit : start.advance.scanStringBody.1 with
  | true =>
      have hnewline := hreturned hexit
      have hinside : start.advance.scanStringBody.2.index < start.source.length := by
        rw [← hsource]
        exact Lexer.index_lt_of_peek (by rw [hnewline]; decide)
      rw [if_pos rfl]
      refine .unterminated hnarrow ?_
      rw [henter, ahead_string hinside, if_pos (Or.inr (hpeekEq.trans hnewline)),
        ahead_ordinary hinside (by rw [hpeekEq, hnewline]; decide)]
  | false =>
      rw [if_neg (by simp)]
      rcases hstopped hexit with hzero | hclose
      · have hend : start.source.length ≤ start.advance.scanStringBody.2.index :=
          hfree.length_le (hpeekEq.trans hzero)
        rw [if_pos (by rw [hzero]; decide)]
        refine .unterminated hnarrow ?_
        rw [henter, ahead_end _ hend, ahead_end _ hend]
      · have hnonzero : start.advance.scanStringBody.2.peek ≠ 0 := by
          rw [hclose]
          decide
        have hinside : start.advance.scanStringBody.2.index < start.source.length := by
          rw [← hsource]
          exact Lexer.index_lt_of_peek hnonzero
        have hnext := Lexer.advance_index hnonzero
        rw [if_neg (by simp [hclose])]
        refine .string hnarrow hindex hmoves.le hnext (Or.inl hopen)
          (by rw [hpeekEq, hclose, hopen]) ?_
        rw [henter, hnext, ahead_string hinside, if_pos (Or.inl (hpeekEq.trans hclose))]

theorem scanRawString_case (hbacktick : start.peek = backtick) :
    ScanCase order start (start.scanRawString start.advance) := by
  have hlt := Lexer.index_lt_of_peek hpeek
  have hindex := Lexer.advance_index hpeek
  have hopen : byteAt start.source start.index = backtick := hbacktick
  have hnarrow : ¬ WideAt start.source start.index :=
    not_wideAt_of_start (by rw [hopen]; decide)
  have hmoves := (Lexer.drives_scanRawStringBody start.advance).moves
  have hsource : start.advance.scanRawStringBody.source = start.source := by
    rw [hmoves.source, Lexer.advance_source]
  obtain ⟨hbody, hstopped⟩ := Lexer.scanRawStringBody_spec start.advance
  have henter : ahead .code start.source start.index =
      ahead .raw start.source start.advance.scanRawStringBody.index := by
    rw [ahead_code hlt, if_neg (by rw [hopen]; decide), if_pos hopen, ← hindex,
      ← Lexer.advance_source start, hbody]
  have hpeekEq : byteAt start.source start.advance.scanRawStringBody.index =
      start.advance.scanRawStringBody.peek := by
    rw [Lexer.peek, hsource]
  simp only [Lexer.scanRawString]
  rcases hstopped with hzero | hclose
  · have hend : start.source.length ≤ start.advance.scanRawStringBody.index :=
      hfree.length_le (hpeekEq.trans hzero)
    rw [if_pos (by rw [hzero]; decide)]
    refine .unterminated hnarrow ?_
    rw [henter, ahead_end _ hend, ahead_end _ hend]
  · have hnonzero : start.advance.scanRawStringBody.peek ≠ 0 := by
      rw [hclose]
      decide
    have hinside : start.advance.scanRawStringBody.index < start.source.length := by
      rw [← hsource]
      exact Lexer.index_lt_of_peek hnonzero
    have hnext := Lexer.advance_index hnonzero
    rw [if_neg (by simp [hclose])]
    refine .string hnarrow hindex hmoves.le hnext (Or.inr hopen)
      (by rw [hpeekEq, hclose, hopen]) ?_
    rw [henter, hnext, ahead_raw hinside, if_pos (hpeekEq.trans hclose)]

theorem scanToken_case (hcomment : ¬ (start.peek = slash ∧ start.peekNext = slash)) :
    ScanCase order start (scanToken order start) := by
  have hlt := Lexer.index_lt_of_peek hpeek
  have hindex := Lexer.advance_index hpeek
  simp only [scanToken]
  cases hpunctuation : punctuation start.peek with
  | some kind => exact scanPunctuation_case hpeek hpunctuation hcomment
  | none =>
    cases hoperator : operator start.peek with
    | some kinds => exact scanOperator_case hpeek hoperator
    | none =>
      simp only
      by_cases hquote : start.peek = quote
      · rw [hquote, if_neg (by decide), if_neg (by decide), if_neg (by decide), if_pos rfl]
        exact scanString_case hfree hpeek hquote
      by_cases hbacktick : start.peek = backtick
      · rw [hbacktick, if_neg (by decide), if_neg (by decide), if_neg (by decide),
          if_neg (by decide), if_pos rfl]
        exact scanRawString_case hfree hpeek hbacktick
      have hordinary := ordinary_of_cases hpunctuation hoperator hquote hbacktick
      have hnarrow : ¬ WideAt start.source start.index := not_wideAt_of_ordinary hordinary
      have hahead : ahead .code start.source start.index =
          ahead .code start.source start.advance.index := by
        rw [hindex]
        exact ahead_ordinary hlt hordinary
      split
      · rename_i hperiod
        rcases Lexer.accept_cases start.advance period with
          ⟨hmatch, haccept⟩ | ⟨hmatch, haccept⟩
        · obtain ⟨htwice, hlength⟩ := scanTwice_ahead hpeek (by decide) hperiod hmatch
          simp only [haccept, if_true]
          exact .plain rfl hnarrow hlength htwice
        · simp only [haccept, Bool.false_eq_true, if_false]
          exact .plain rfl hnarrow (by rw [hindex]) hahead
      split
      · rename_i hampersand
        exact scanPair_case hpeek rfl (by decide) hampersand
      split
      · rename_i hbar
        exact scanPair_case hpeek rfl (by decide) hbar
      split
      · exact scanTail_case hpeek rfl rfl (fun _ => isOrdinary_digit) hordinary rfl
      split
      · exact scanTail_case hpeek (isPlainKind_keywordKind _) rfl
          (fun _ => isOrdinary_identifier) hordinary rfl
      · exact .invalid hnarrow hindex hahead

end Switch

namespace ScanCase

variable {order : ArgumentOrder} {start : Lexer} {outcome : Emitted × Lexer}

theorem ahead_iff (hcase : ScanCase order start outcome) :
    ahead .code start.source start.index = true ↔
      WideAt start.source start.index ∨
        ahead .code start.source outcome.2.index = true := by
  cases hcase with
  | plain _ hnarrow _ hahead => simp [hnarrow, hahead]
  | wide _ hwide _ hahead _ => simp [hwide, hahead]
  | string hnarrow _ _ _ _ _ hahead => simp [hnarrow, hahead]
  | unterminated hnarrow hahead => simp [hnarrow, hahead]
  | invalid hnarrow _ hahead => simp [hnarrow, hahead]

theorem fits (hcase : ScanCase order start outcome) (hwide : ¬ WideAt start.source start.index) :
    EmittedFits start.source start.index outcome.2.index outcome.1 := by
  cases hcase with
  | @plain kind length next hkind hnarrow hlength hahead =>
      simp only [isPlainKind, Bool.and_eq_true, bne_iff_ne, ne_eq] at hkind
      refine ⟨hkind.1, rfl, fun _ => ?_, fun hstring => absurd hstring hkind.2⟩
      simp only [Lexer.token]
      rw [← hlength, Nat.add_sub_cancel_left]
  | wide _ hwide' _ _ _ => exact absurd hwide' hwide
  | @string next content stop hnarrow hcontent hle hnext hopen hclose hahead =>
      refine ⟨by simp, rfl, fun hplain => absurd rfl hplain, fun _ => ?_⟩
      simp only [hnext, Nat.add_sub_cancel, hcontent]
      exact ⟨by omega, hopen, hclose, trivial⟩
  | unterminated hnarrow hahead => exact ⟨rfl, Or.inr rfl⟩
  | invalid hnarrow hnext hahead => exact ⟨rfl, Or.inl ⟨rfl, hnext⟩⟩

/-- A length that C read before `cn_lexer_match` ran leaves out the second byte. -/
theorem not_fits (hcase : ScanCase .indexFirst start outcome)
    (hwide : WideAt start.source start.index) (hlt : start.index + 1 < start.source.length) :
    ¬ EmittedFits start.source start.index outcome.2.index outcome.1 := by
  cases hcase with
  | @wide kind length next hkind hwide' hnext hahead hlength =>
      intro hfits
      simp only [isPlainKind, Bool.and_eq_true, bne_iff_ne, ne_eq] at hkind
      have hlexeme := congrArg List.length (hfits.lexeme hkind.2)
      simp only [Lexer.token, slice, List.length_take, List.length_drop, hnext, hlength rfl]
        at hlexeme
      omega
  | plain _ hnarrow _ _ => exact absurd hwide hnarrow
  | string hnarrow _ _ _ _ _ _ => exact absurd hwide hnarrow
  | unterminated hnarrow _ => exact absurd hwide hnarrow
  | invalid hnarrow _ _ => exact absurd hwide hnarrow

end ScanCase

/-! Runs of the loop. -/

section Loop

variable {order : Nat → ArgumentOrder}

theorem scanAll_step {lexer : Lexer} (hfree : NulFree lexer.source)
    (hmore : ¬ lexer.skipWhitespace.source.length ≤ lexer.skipWhitespace.index)
    (chosen : ArgumentOrder) :
    ScanCase chosen lexer.skipWhitespace (scanToken chosen lexer.skipWhitespace) ∧
      Moves lexer (scanToken chosen lexer.skipWhitespace).2 ∧
      lexer.skipWhitespace.index < (scanToken chosen lexer.skipWhitespace).2.index := by
  have hskip := Lexer.moves_skipWhitespace lexer
  obtain ⟨-, -, hcomment⟩ := Lexer.skipWhitespace_spec hfree
  have hpeek : lexer.skipWhitespace.peek ≠ 0 := by
    rw [Lexer.peek, hskip.source]
    rw [hskip.source] at hmore
    exact hfree.byteAt_ne (by omega)
  have htoken := moves_scanToken chosen lexer.skipWhitespace
  have hindex := Lexer.advance_index hpeek
  have hforward := htoken.le
  refine ⟨scanToken_case (by rw [hskip.source]; exact hfree) hpeek hcomment,
    hskip.trans ((Lexer.moves_advance _).trans htoken), by omega⟩

theorem scanAll_terminates (fuel : Nat) {lexer : Lexer} (hfree : NulFree lexer.source)
    (hle : lexer.index ≤ lexer.source.length)
    (hfuel : lexer.source.length - lexer.index < fuel) :
    ∃ run, scanAll order fuel lexer = some run := by
  induction fuel generalizing lexer with
  | zero => omega
  | succ fuel ih =>
      rw [scanAll]
      split
      · rename_i hlt
        dsimp only
        split
        · exact ⟨_, rfl⟩
        · rename_i hmore
          obtain ⟨-, hmoves, hforward⟩ :=
            scanAll_step hfree hmore (order lexer.skipWhitespace.index)
          have hstart := (Lexer.moves_skipWhitespace lexer).le
          obtain ⟨run, hrun⟩ := @ih (scanToken (order lexer.skipWhitespace.index)
              lexer.skipWhitespace).2
            (by rw [hmoves.source]; exact hfree)
            (by rw [hmoves.source]; exact hmoves.le_length hle)
            (by rw [hmoves.source]; omega)
          rw [hrun]
          exact ⟨_, rfl⟩
      · exact ⟨_, rfl⟩

/-- The iterations of a run cut the source, with blank stretches between them. -/
theorem scanAll_tiled (fuel : Nat) {lexer final : Lexer} {scans : List Scan}
    (hfree : NulFree lexer.source) (hle : lexer.index ≤ lexer.source.length)
    (hrun : scanAll order fuel lexer = some (scans, final)) :
    Tiled Scan.start Scan.stop (Blank lexer.source) lexer.index lexer.source.length scans ∧
      (∀ scan ∈ scans, scan.stop ≤ lexer.source.length) ∧
      final.source = lexer.source := by
  induction fuel generalizing lexer scans with
  | zero => exact absurd hrun (by simp [scanAll])
  | succ fuel ih =>
      have hskip := Lexer.moves_skipWhitespace lexer
      obtain ⟨-, hblank, -⟩ := Lexer.skipWhitespace_spec hfree
      rw [scanAll] at hrun
      split at hrun
      · rename_i hlt
        dsimp only at hrun
        split at hrun
        · rename_i hend
          simp only [Option.some.injEq, Prod.mk.injEq] at hrun
          obtain ⟨rfl, rfl⟩ := hrun
          rw [hskip.source] at hend
          refine ⟨.nil hle ?_, by simp, hskip.source⟩
          have hindex : lexer.skipWhitespace.index = lexer.source.length :=
            Nat.le_antisymm (hskip.le_length hle) hend
          rwa [hindex] at hblank
        · rename_i hmore
          obtain ⟨-, hmoves, hforward⟩ :=
            scanAll_step hfree hmore (order lexer.skipWhitespace.index)
          split at hrun
          · exact absurd hrun (by simp)
          · rename_i rest last hrest
            simp only [Option.some.injEq, Prod.mk.injEq] at hrun
            obtain ⟨rfl, rfl⟩ := hrun
            obtain ⟨htiled, hstops, hfinal⟩ := ih (by rw [hmoves.source]; exact hfree)
              (by rw [hmoves.source]; exact hmoves.le_length hle) hrest
            rw [hmoves.source] at htiled hstops hfinal
            refine ⟨.cons hskip.le hblank hforward htiled, ?_, hfinal⟩
            intro scan hscan
            rcases List.mem_cons.mp hscan with rfl | hscan
            · exact hmoves.le_length hle
            · exact hstops scan hscan
      · rename_i hend
        simp only [Option.some.injEq, Prod.mk.injEq] at hrun
        obtain ⟨rfl, rfl⟩ := hrun
        refine ⟨.nil hle fun index hfrom hto => by omega, by simp, rfl⟩

/-- Without an operator of two bytes, every iteration emits what it consumed. -/
theorem scanAll_fits (fuel : Nat) {lexer final : Lexer} {scans : List Scan}
    (hfree : NulFree lexer.source) (hle : lexer.index ≤ lexer.source.length)
    (hnarrow : ahead .code lexer.source lexer.index = false)
    (hrun : scanAll order fuel lexer = some (scans, final)) :
    ∀ scan ∈ scans, EmittedFits lexer.source scan.start scan.stop scan.emitted := by
  induction fuel generalizing lexer scans with
  | zero => exact absurd hrun (by simp [scanAll])
  | succ fuel ih =>
      have hskip := Lexer.moves_skipWhitespace lexer
      obtain ⟨hahead, -, -⟩ := Lexer.skipWhitespace_spec hfree
      rw [scanAll] at hrun
      split at hrun
      · rename_i hlt
        dsimp only at hrun
        split at hrun
        · simp only [Option.some.injEq, Prod.mk.injEq] at hrun
          obtain ⟨rfl, -⟩ := hrun
          simp
        · rename_i hmore
          obtain ⟨hcase, hmoves, hforward⟩ :=
            scanAll_step hfree hmore (order lexer.skipWhitespace.index)
          have hiff := hcase.ahead_iff
          rw [hskip.source, ← hahead, hnarrow] at hiff
          simp only [Bool.false_eq_true, false_iff, not_or, Bool.not_eq_true] at hiff
          split at hrun
          · exact absurd hrun (by simp)
          · rename_i rest last hrest
            simp only [Option.some.injEq, Prod.mk.injEq] at hrun
            obtain ⟨rfl, rfl⟩ := hrun
            have hfits := ih (by rw [hmoves.source]; exact hfree)
              (by rw [hmoves.source]; exact hmoves.le_length hle)
              (by rw [hmoves.source]; exact hiff.2) hrest
            rw [hmoves.source] at hfits
            intro scan hscan
            rcases List.mem_cons.mp hscan with rfl | hscan
            · have hfirst := hcase.fits (by rw [hskip.source]; exact hiff.1)
              rwa [hskip.source] at hfirst
            · exact hfits scan hscan
      · simp only [Option.some.injEq, Prod.mk.injEq] at hrun
        obtain ⟨rfl, -⟩ := hrun
        simp

/-- An operator of two bytes gives a lexeme of one byte when C reads the index first. -/
theorem scanAll_not_fits (fuel : Nat) {lexer final : Lexer} {scans : List Scan}
    (hfree : NulFree lexer.source) (hle : lexer.index ≤ lexer.source.length)
    (hwide : ahead .code lexer.source lexer.index = true)
    (hrun : scanAll (fun _ => .indexFirst) fuel lexer = some (scans, final)) :
    ∃ scan ∈ scans, ¬ EmittedFits lexer.source scan.start scan.stop scan.emitted := by
  induction fuel generalizing lexer scans with
  | zero => exact absurd hrun (by simp [scanAll])
  | succ fuel ih =>
      have hskip := Lexer.moves_skipWhitespace lexer
      obtain ⟨hahead, -, -⟩ := Lexer.skipWhitespace_spec hfree
      have hlt : lexer.index < lexer.source.length := by
        by_contra hge
        rw [ahead_end _ (by omega)] at hwide
        exact absurd hwide (by simp)
      rw [scanAll, if_pos hlt] at hrun
      dsimp only at hrun
      split at hrun
      · rename_i hend
        rw [hahead, ahead_end _ (by rw [hskip.source] at hend; exact hend)] at hwide
        exact absurd hwide (by simp)
      · rename_i hmore
        obtain ⟨hcase, hmoves, hforward⟩ := scanAll_step hfree hmore .indexFirst
        have hiff := hcase.ahead_iff
        rw [hskip.source, ← hahead, hwide] at hiff
        split at hrun
        · exact absurd hrun (by simp)
        · rename_i rest last hrest
          simp only [Option.some.injEq, Prod.mk.injEq] at hrun
          obtain ⟨rfl, rfl⟩ := hrun
          rcases hiff.mp rfl with hhere | hlater
          · have hinside : lexer.skipWhitespace.index + 1 < lexer.source.length := by
              by_contra hge
              have hzero : byteAt lexer.source (lexer.skipWhitespace.index + 1) = 0 :=
                byteAt_length (by omega)
              rw [hhere.2] at hzero
              exact absurd hzero (by decide)
            have hbad := hcase.not_fits (by rw [hskip.source]; exact hhere)
              (by rw [hskip.source]; exact hinside)
            rw [hskip.source] at hbad
            exact ⟨_, List.mem_cons_self, hbad⟩
          · obtain ⟨scan, hscan, hbad⟩ := ih (by rw [hmoves.source]; exact hfree)
              (by rw [hmoves.source]; exact hmoves.le_length hle)
              (by rw [hmoves.source]; exact hlater) hrest
            rw [hmoves.source] at hbad
            exact ⟨scan, List.mem_cons_of_mem _ hscan, hbad⟩

end Loop

theorem tiles_of_lexable {order : Nat → ArgumentOrder} {source : Text} {fuel : Nat}
    {output : Output} (hlexable : Lexable source)
    (hrun : lexerRun order source fuel = some output) : Tiles source output := by
  simp only [lexerRun, Option.map_eq_some_iff, Prod.exists] at hrun
  obtain ⟨scans, final, hrun, rfl⟩ := hrun
  have hfree : NulFree (lexerInit source).source := hlexable.nulFree
  obtain ⟨htiled, hstops, hfinal⟩ := scanAll_tiled fuel hfree (Nat.zero_le _) hrun
  have hfits := scanAll_fits fuel hfree (Nat.zero_le _) hlexable.narrow hrun
  refine ⟨fun scan hscan => ⟨htiled.lt_stop scan hscan, hstops scan hscan⟩, htiled.pairwise,
    hfits, ?_, ?_⟩
  · intro index hindex
    rcases htiled.covers (Nat.zero_le _) hindex with
      hinside | ⟨low, high, hblank, -, hlow, hhigh, hout⟩
    · exact Or.inl hinside
    · rcases hblank index hlow hhigh with hwhite | ⟨comment, hcomment, hin⟩
      · exact Or.inr (Or.inl hwhite)
      · refine Or.inr (Or.inr ⟨comment, hin, fun scan hscan => ?_⟩)
        rcases hout scan hscan with hbefore | hafter
        · exact Or.inl (by omega)
        · exact Or.inr (by omega)
  · have hlength : final.source = source := hfinal
    exact ⟨final.line, final.column, by simp only [Output.tokens, hlength]⟩

/-- The lexer ends and tiles its source under every order of evaluation exactly when
the source has no NUL byte and no operator of two bytes. -/
theorem lexer_tiles_iff (source : Text) :
    (∀ order, ∃ fuel output, lexerRun order source fuel = some output ∧ Tiles source output) ↔
      Lexable source := by
  constructor
  · intro hall
    obtain ⟨fuel, output, hrun, htiles⟩ := hall fun _ => .indexFirst
    simp only [lexerRun, Option.map_eq_some_iff, Prod.exists] at hrun
    obtain ⟨scans, final, hrun, rfl⟩ := hrun
    have hfree : NulFree source := by
      intro ch hmem hzero
      obtain ⟨limit, hlimit, hget⟩ := List.mem_iff_getElem.mp hmem
      have hnul : byteAt source limit = 0 := by
        rw [byteAt, List.getElem?_eq_getElem hlimit, Option.getD_some, hget, hzero]
      rw [scanAll_of_nul fuel hnul hlimit (Nat.zero_le _)] at hrun
      exact absurd hrun (by simp)
    refine ⟨hfree, ?_⟩
    cases hwide : hasWideOperator .code source with
    | false => rfl
    | true =>
        obtain ⟨scan, hscan, hbad⟩ := @scanAll_not_fits fuel (lexerInit source) _ _ hfree
          (Nat.zero_le _) hwide hrun
        exact absurd (htiles.fits scan hscan) hbad
  · intro hlexable order
    obtain ⟨run, hrun⟩ := @scanAll_terminates order (source.length + 1) (lexerInit source)
      hlexable.nulFree (Nat.zero_le _)
      (by simp only [lexerInit]; omega)
    have hoverall : lexerRun order source (source.length + 1) = some ⟨run.1, run.2⟩ := by
      rw [lexerRun, hrun, Option.map_some]
    exact ⟨_, _, hoverall, tiles_of_lexable hlexable hoverall⟩

/-- A NUL byte hangs the loop, and `==` gives the lexeme `=`. -/
theorem nul_and_equals_break_lexer :
    (∀ order fuel, lexerRun order [0] fuel = none) ∧
      (lexerRun (fun _ => .indexFirst) (Name.text "==") 3).map Output.tokens =
        some [⟨.equalEqual, 0, 1, 1, Name.text "="⟩, ⟨.eof, 2, 1, 3, []⟩] ∧
      ¬ ∀ source order, ∃ fuel output,
        lexerRun order source fuel = some output ∧ Tiles source output := by
  have hhang : ∀ order fuel, lexerRun order [0] fuel = none := by
    intro order fuel
    rw [lexerRun, @scanAll_of_nul order 0 fuel (lexerInit [0]) rfl (by decide)
      (Nat.le_refl _), Option.map_none]
  refine ⟨hhang, by decide +kernel, fun hall => ?_⟩
  obtain ⟨fuel, output, hrun, -⟩ := hall [0] fun _ => .indexFirst
  rw [hhang] at hrun
  exact absurd hrun (by simp)

end Lex

end Cnegative
