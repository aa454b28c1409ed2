import Cnegative.Library.Tiling
import Cnegative.Lex.Lexer

namespace Cnegative

namespace Lex

open Library (Tiled)

/-! What a tiling of the source is. -/

/-- The byte at `index` is part of a `//` comment that begins at `start`. -/
def InComment (source : Text) (start index : Nat) : Prop :=
  start ≤ index ∧ byteAt source start = slash ∧ byteAt source (start + 1) = slash ∧
    ∀ position, start ≤ position → position ≤ index → byteAt source position ≠ newline

def Blank (source : Text) (start stop : Nat) : Prop :=
  ∀ index, start ≤ index → index < stop →
    isWhitespace (byteAt source index) = true ∨
      ∃ comment, start ≤ comment ∧ InComment source comment index

structure TokenFits (source : Text) (start stop : Nat) (token : Token) : Prop where
  kind : token.kind ≠ .eof
  offset : token.offset = start
  lexeme : token.kind ≠ .stringLiteral → token.lexeme = slice source start (stop - start)
  string : token.kind = .stringLiteral →
    start + 2 ≤ stop ∧
      (byteAt source start = quote ∨ byteAt source start = backtick) ∧
      byteAt source (stop - 1) = byteAt source start ∧
      token.lexeme = slice source (start + 1) (stop - 1 - (start + 1))

/-- The diagnostic stands where its bytes begin; E1004 is about one byte. -/
structure DiagnosticFits (start stop : Nat) (diagnostic : Diagnostic) : Prop where
  offset : diagnostic.offset = start
  code : diagnostic.code = "E1004" ∧ stop = start + 1 ∨ diagnostic.code = "E1005"

def EmittedFits (source : Text) (start stop : Nat) : Emitted → Prop
  | .token token => TokenFits source start stop token
  | .diagnostic diagnostic => DiagnosticFits start stop diagnostic

/-- The tokens and the diagnostics of a run tile its source. -/
structure Tiles (source : Text) (output : Output) : Prop where
  nonempty : ∀ scan ∈ output.scans, scan.start < scan.stop ∧ scan.stop ≤ source.length
  increasing : output.scans.Pairwise fun first second => first.stop ≤ second.start
  fits : ∀ scan ∈ output.scans, EmittedFits source scan.start scan.stop scan.emitted
  covered : ∀ index < source.length,
    (∃ scan ∈ output.scans, scan.start ≤ index ∧ index < scan.stop) ∨
      isWhitespace (byteAt source index) = true ∨
      ∃ comment, InComment source comment index ∧
        ∀ scan ∈ output.scans, scan.stop ≤ comment ∨ index < scan.start
  ends : ∃ line column,
    output.tokens = output.scanned ++ [⟨.eof, source.length, line, column, []⟩]

/-! How far a scanner moves: forward, and never past a NUL or the end. -/

structure Moves (before after : Lexer) : Prop where
  source : after.source = before.source
  le : before.index ≤ after.index
  barrier : ∀ limit, byteAt before.source limit = 0 → before.index ≤ limit → after.index ≤ limit

namespace Moves

theorem refl (lexer : Lexer) : Moves lexer lexer :=
  ⟨rfl, Nat.le_refl _, fun _ _ hle => hle⟩

theorem trans {first second third : Lexer} (hleft : Moves first second)
    (hright : Moves second third) : Moves first third := by
  refine ⟨hright.source.trans hleft.source, Nat.le_trans hleft.le hright.le, ?_⟩
  intro limit hlimit hle
  exact hright.barrier limit (hleft.source ▸ hlimit) (hleft.barrier limit hlimit hle)

end Moves

theorem byteAt_length {source : Text} {index : Nat} (hle : source.length ≤ index) :
    byteAt source index = 0 := by
  rw [byteAt, List.getElem?_eq_none hle, Option.getD_none]

theorem Moves.le_length {before after : Lexer} (hmoves : Moves before after)
    (hle : before.index ≤ before.source.length) : after.index ≤ before.source.length :=
  hmoves.barrier _ (byteAt_length (Nat.le_refl _)) hle

namespace Lexer

theorem moves_advance (lexer : Lexer) : Moves lexer lexer.advance := by
  by_cases hpeek : lexer.peek = 0
  · have hsame : lexer.advance = lexer := by
      rw [advance, if_pos (by simpa using hpeek)]
    rw [hsame]
    exact .refl lexer
  · refine ⟨advance_source lexer, by rw [advance_index hpeek]; omega, ?_⟩
    intro limit hlimit hle
    rw [advance_index hpeek]
    have hne : lexer.index ≠ limit := by
      rintro rfl
      exact hpeek hlimit
    omega

end Lexer

theorem scanTail_spec {inClass : UInt8 → Bool} {source : Text} (hzero : inClass 0 = false)
    (index : Nat) :
    index ≤ scanTail inClass source index ∧
      (∀ limit, byteAt source limit = 0 → index ≤ limit →
        scanTail inClass source index ≤ limit) ∧
      ∀ position, index ≤ position → position < scanTail inClass source index →
        inClass (byteAt source position) = true := by
  induction index using scanTail.induct inClass source with
  | case1 index hmore ih =>
      obtain ⟨hle, hbarrier, hclass⟩ := ih
      rw [scanTail, dif_pos hmore]
      refine ⟨by omega, fun limit hlimit hlt => ?_, fun position hposition hlt => ?_⟩
      · have hne : index ≠ limit := by
          rintro rfl
          rw [hlimit, hzero] at hmore
          exact absurd hmore.2 (by simp)
        exact hbarrier limit hlimit (by omega)
      · by_cases hfirst : position = index
        · rw [hfirst]
          exact hmore.2
        · exact hclass position (by omega) hlt
  | case2 index hmore =>
      rw [scanTail, dif_neg hmore]
      exact ⟨Nat.le_refl _, fun limit _ hle => hle, fun position hle hlt => by omega⟩

namespace Lexer

theorem moves_moveTo {lexer : Lexer} {inClass : UInt8 → Bool} (hzero : inClass 0 = false) :
    Moves lexer (lexer.moveTo (scanTail inClass lexer.source lexer.index)) := by
  obtain ⟨hle, hbarrier, -⟩ := scanTail_spec hzero lexer.index
  exact ⟨rfl, hle, hbarrier⟩

end Lexer

/-! How a scanner gets forward: byte by byte, or over the tail of a token at once. -/

inductive Drives : Lexer → Lexer → Prop
  | refl (lexer : Lexer) : Drives lexer lexer
  | advance (lexer : Lexer) : Drives lexer lexer.advance
  | tail (lexer : Lexer) {inClass : UInt8 → Bool}
      (hclass : ∀ ch, inClass ch = true → isIdentifierContinue ch = true) :
      Drives lexer (lexer.moveTo (scanTail inClass lexer.source lexer.index))
  | trans {first second third : Lexer} (hleft : Drives first second)
      (hright : Drives second third) : Drives first third

theorem Drives.moves {before after : Lexer} (hdrives : Drives before after) :
    Moves before after := by
  induction hdrives with
  | refl lexer => exact .refl lexer
  | advance lexer => exact Lexer.moves_advance lexer
  | @tail lexer inClass hclass =>
      have hzero : inClass 0 = false := by
        by_contra hne
        exact absurd (hclass 0 (by simpa using hne)) (by decide)
      exact Lexer.moves_moveTo hzero
  | trans _ _ ihLeft ihRight => exact ihLeft.trans ihRight

namespace Lexer

theorem drives_accept (lexer : Lexer) (expected : UInt8) :
    Drives lexer (lexer.accept expected).2 := by
  unfold accept
  split
  · exact .refl lexer
  · exact .advance lexer

theorem drives_skipComment (lexer : Lexer) : Drives lexer lexer.skipComment := by
  induction lexer using skipComment.induct with
  | case1 lexer h ih =>
      rw [skipComment, dif_pos h]
      exact .trans (.advance lexer) ih
  | case2 lexer h =>
      rw [skipComment, dif_neg h]
      exact .refl lexer

theorem drives_skipWhitespace (lexer : Lexer) : Drives lexer lexer.skipWhitespace := by
  induction lexer using skipWhitespace.induct with
  | case1 lexer hspace ih =>
      rw [skipWhitespace, dif_pos hspace]
      exact .trans (.advance lexer) ih
  | case2 lexer hspace hcomment ih =>
      rw [skipWhitespace, dif_neg hspace, dif_pos hcomment]
      exact .trans (drives_skipComment lexer) ih
  | case3 lexer hspace hcomment =>
      rw [skipWhitespace, dif_neg hspace, dif_neg hcomment]
      exact .refl lexer

theorem moves_skipWhitespace (lexer : Lexer) : Moves lexer lexer.skipWhitespace :=
  (drives_skipWhitespace lexer).moves

theorem drives_skipEscape (lexer : Lexer) : Drives lexer lexer.skipEscape := by
  unfold skipEscape
  split
  · exact .advance lexer
  · exact .refl lexer

theorem drives_scanStringBody (lexer : Lexer) : Drives lexer lexer.scanStringBody.2 := by
  induction lexer using scanStringBody.induct with
  | case1 lexer hmore hnewline =>
      rw [scanStringBody, dif_pos hmore, if_pos hnewline]
      exact .refl lexer
  | case2 lexer hmore hnewline ih =>
      rw [scanStringBody, dif_pos hmore, if_neg hnewline]
      exact .trans (.trans (drives_skipEscape lexer) (.advance _)) ih
  | case3 lexer hmore =>
      rw [scanStringBody, dif_neg hmore]
      exact .refl lexer

theorem drives_scanRawStringBody (lexer : Lexer) : Drives lexer lexer.scanRawStringBody := by
  induction lexer using scanRawStringBody.induct with
  | case1 lexer hmore ih =>
      rw [scanRawStringBody, dif_pos hmore]
      exact .trans (.advance lexer) ih
  | case2 lexer hmore =>
      rw [scanRawStringBody, dif_neg hmore]
      exact .refl lexer

theorem drives_scanString (start lexer : Lexer) : Drives lexer (start.scanString lexer).2 := by
  have hbody := drives_scanStringBody lexer
  simp only [scanString]
  split
  · exact hbody
  · split
    · exact hbody
    · exact .trans hbody (.advance _)

theorem drives_scanRawString (start lexer : Lexer) :
    Drives lexer (start.scanRawString lexer).2 := by
  have hbody := drives_scanRawStringBody lexer
  simp only [scanRawString]
  split
  · exact hbody
  · exact .trans hbody (.advance _)

theorem drives_scanPair (start lexer : Lexer) (ch : UInt8) (kind : TokenKind) :
    Drives lexer (start.scanPair lexer ch kind).2 := by
  have haccept := drives_accept lexer ch
  simp only [scanPair]
  split <;> exact haccept

end Lexer

theorem drives_scanToken (order : ArgumentOrder) (start : Lexer) :
    Drives start.advance (scanToken order start).2 := by
  simp only [scanToken]
  split
  · exact .refl _
  split
  · exact Lexer.drives_accept _ _
  split
  · exact Lexer.drives_accept _ _
  split
  · exact Lexer.drives_scanPair _ _ _ _
  split
  · exact Lexer.drives_scanPair _ _ _ _
  split
  · exact Lexer.drives_scanString _ _
  split
  · exact Lexer.drives_scanRawString _ _
  split
  · exact .tail _ fun ch hch => by simp [isIdentifierContinue, hch]
  split
  · exact .tail _ fun _ hch => hch
  · exact .refl _

theorem moves_scanToken (order : ArgumentOrder) (start : Lexer) :
    Moves start.advance (scanToken order start).2 :=
  (drives_scanToken order start).moves

/-! A NUL stops the lexer for good. -/

/-- No iteration gets past a NUL, so the loop in front of one never ends. -/
theorem scanAll_of_nul {order : Nat → ArgumentOrder} {limit : Nat} (fuel : Nat) {lexer : Lexer}
    (hnul : byteAt lexer.source limit = 0) (hlimit : limit < lexer.source.length)
    (hle : lexer.index ≤ limit) : scanAll order fuel lexer = none := by
  induction fuel generalizing lexer with
  | zero => rfl
  | succ fuel ih =>
      have hskip := Lexer.moves_skipWhitespace lexer
      have hmoves := hskip.trans ((Lexer.moves_advance _).trans
        (moves_scanToken (order lexer.skipWhitespace.index) lexer.skipWhitespace))
      have hstart := hskip.barrier limit hnul hle
      have hnext := ih
        (by rw [hmoves.source]; exact hnul) (by rw [hmoves.source]; exact hlimit)
        (hmoves.barrier limit hnul hle)
      rw [scanAll, if_pos (by omega)]
      dsimp only
      rw [if_neg (by rw [hskip.source]; omega), hnext]

end Lex

end Cnegative
