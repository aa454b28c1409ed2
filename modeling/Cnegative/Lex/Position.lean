import Mathlib.Data.List.GetD
import Mathlib.Data.List.Induction
import Cnegative.Lex.Faithful

namespace Cnegative

namespace Lex

/-! `source.c`: the table of line offsets, and the search in it. -/

def countLines (text : Text) : Nat :=
  text.foldl (fun lines ch => if ch = newline then lines + 1 else lines) 1

/-- One turn of the loop of `cn_source_load` that fills the table. -/
def recordLine (lineCount : Nat) (table : List Nat × Nat) (byte : UInt8 × Nat) :
    List Nat × Nat :=
  if byte.1 = newline ∧ table.2 < lineCount then
    (table.1.set table.2 (byte.2 + 1), table.2 + 1)
  else table

/-- `cn_source`, as far as positions go. -/
structure Source where
  text : Text
  lineOffsets : List Nat
  lineCount : Nat
  deriving DecidableEq, Repr

def sourceLoad (text : Text) : Source :=
  let lineCount := countLines text
  ⟨text, (text.zipIdx.foldl (recordLine lineCount) (List.replicate lineCount 0, 1)).1, lineCount⟩

/-- The binary search of `cn_source_position`. -/
def findLine (lineOffsets : List Nat) (offset low high : Nat) : Nat :=
  if _hmore : low + 1 < high then
    let mid := low + (high - low) / 2
    if lineOffsets.getD mid 0 ≤ offset then findLine lineOffsets offset mid high
    else findLine lineOffsets offset low mid
  else low
termination_by high - low
decreasing_by all_goals omega

def sourcePosition (source : Source) (offset : Nat) : Nat × Nat :=
  let low := findLine source.lineOffsets offset 0 source.lineCount
  (low + 1, offset - source.lineOffsets.getD low 0 + 1)

/-! What a line and a column are. -/

def newlines (text : Text) : Nat := text.count newline

/-- How many bytes stand behind the last newline, or in all where there is none. -/
def sinceNewline (text : Text) : Nat := (text.reverse.takeWhile (· != newline)).length

def lineOf (text : Text) (offset : Nat) : Nat := 1 + newlines (text.take offset)

def columnOf (text : Text) (offset : Nat) : Nat := 1 + sinceNewline (text.take offset)

@[simp] theorem newlines_nil : newlines [] = 0 := rfl

@[simp] theorem sinceNewline_nil : sinceNewline [] = 0 := rfl

theorem newlines_append_singleton (text : Text) (ch : UInt8) :
    newlines (text ++ [ch]) = newlines text + if ch = newline then 1 else 0 := by
  rw [newlines, List.count_append, List.count_singleton, newlines]
  simp

theorem sinceNewline_append_singleton (text : Text) (ch : UInt8) :
    sinceNewline (text ++ [ch]) = if ch = newline then 0 else sinceNewline text + 1 := by
  unfold sinceNewline
  rw [List.reverse_append, List.reverse_singleton, List.singleton_append, List.takeWhile_cons]
  split <;> simp_all

/-! The table holds the offsets behind the newlines. -/

def lineStarts (text : Text) : List Nat :=
  0 :: text.zipIdx.filterMap fun byte => if byte.1 = newline then some (byte.2 + 1) else none

theorem lineStarts_append_singleton (text : Text) (ch : UInt8) :
    lineStarts (text ++ [ch]) =
      lineStarts text ++ if ch = newline then [text.length + 1] else [] := by
  unfold lineStarts
  rw [List.zipIdx_append, List.filterMap_append, List.cons_append]
  congr 2
  simp only [List.zipIdx_cons, List.zipIdx_nil, Nat.zero_add, List.filterMap_cons,
    List.filterMap_nil]
  split <;> simp_all

theorem length_lineStarts (text : Text) : (lineStarts text).length = newlines text + 1 := by
  induction text using List.reverseRecOn with
  | nil => rfl
  | append_singleton text ch ih =>
      rw [lineStarts_append_singleton, newlines_append_singleton, List.length_append, ih]
      split <;> simp

theorem countLines_eq (text : Text) : countLines text = newlines text + 1 := by
  unfold countLines
  induction text using List.reverseRecOn with
  | nil => rfl
  | append_singleton text ch ih =>
      rw [List.foldl_append, List.foldl_cons, List.foldl_nil, ih, newlines_append_singleton]
      split <;> omega

theorem recordLines_eq (text : Text) {lineCount : Nat} (hroom : newlines text < lineCount) :
    text.zipIdx.foldl (recordLine lineCount) (List.replicate lineCount 0, 1) =
      (lineStarts text ++ List.replicate (lineCount - (newlines text + 1)) 0,
        newlines text + 1) := by
  induction text using List.reverseRecOn with
  | nil =>
      obtain ⟨count, rfl⟩ := Nat.exists_eq_succ_of_ne_zero (Nat.ne_of_gt hroom)
      rfl
  | append_singleton text ch ih =>
      rw [newlines_append_singleton] at hroom ⊢
      rw [List.zipIdx_append, List.foldl_append, ih (by omega), lineStarts_append_singleton]
      simp only [List.zipIdx_cons, List.zipIdx_nil, Nat.zero_add, List.foldl_cons, List.foldl_nil,
        recordLine]
      by_cases hnewline : ch = newline
      · rw [if_pos hnewline] at hroom
        obtain ⟨rest, hrest⟩ : ∃ rest, lineCount - (newlines text + 1) = rest + 1 :=
          ⟨lineCount - (newlines text + 1) - 1, by omega⟩
        rw [if_pos ⟨hnewline, by omega⟩, if_pos hnewline, if_pos hnewline, hrest,
          List.replicate_succ, List.set_append_right _ _ (Nat.le_of_eq (length_lineStarts text)),
          length_lineStarts, Nat.sub_self, List.set_cons_zero, List.append_assoc,
          List.singleton_append]
        congr 4
        omega
      · rw [if_neg (fun h => hnewline h.1), if_neg hnewline, if_neg hnewline, List.append_nil,
          Nat.add_zero]

theorem sourceLoad_lineOffsets (text : Text) :
    (sourceLoad text).lineOffsets = lineStarts text := by
  simp only [sourceLoad, countLines_eq]
  rw [recordLines_eq text (Nat.lt_succ_self _)]
  simp

theorem newlines_take_le (text : Text) (offset : Nat) :
    newlines (text.take offset) ≤ newlines text :=
  (List.take_sublist offset text).count_le newline

theorem getD_lineStarts_append (text : Text) (ch : UInt8) {line : Nat}
    (hline : line ≤ newlines text) :
    (lineStarts (text ++ [ch])).getD line 0 = (lineStarts text).getD line 0 := by
  rw [lineStarts_append_singleton]
  exact List.getD_append _ _ _ _ (by rw [length_lineStarts]; omega)

theorem getD_lineStarts_last (text : Text) :
    (lineStarts (text ++ [newline])).getD (newlines text + 1) 0 = text.length + 1 := by
  rw [lineStarts_append_singleton, if_pos rfl,
    List.getD_append_right _ _ _ _ (Nat.le_of_eq (length_lineStarts text)), length_lineStarts, Nat.sub_self,
    List.getD_cons_zero]

/-- The start of a line lies at or below an offset just when so many newlines stand in front. -/
theorem lineStarts_le_iff (text : Text) {offset line : Nat} (hoffset : offset ≤ text.length)
    (hline : line ≤ newlines text) :
    (lineStarts text).getD line 0 ≤ offset ↔ line ≤ newlines (text.take offset) := by
  induction text using List.reverseRecOn generalizing offset line with
  | nil =>
      obtain rfl : line = 0 := Nat.le_zero.mp hline
      simp [lineStarts]
  | append_singleton text ch ih =>
      rw [newlines_append_singleton] at hline
      rw [List.length_append, List.length_singleton] at hoffset
      by_cases hold : line ≤ newlines text
      · rw [getD_lineStarts_append text ch hold]
        by_cases hinside : offset ≤ text.length
        · rw [List.take_append_of_le_length hinside]
          exact ih hinside hold
        · have hlast := (ih (Nat.le_refl _) hold).mpr (by rwa [List.take_length])
          rw [List.take_of_length_le (by simp; omega), newlines_append_singleton]
          omega
      · have hnewline : ch = newline := by
          by_contra hne
          rw [if_neg hne] at hline
          omega
        subst hnewline
        obtain rfl : line = newlines text + 1 := by
          rw [if_pos rfl] at hline
          omega
        rw [getD_lineStarts_last]
        by_cases hinside : offset ≤ text.length
        · rw [List.take_append_of_le_length hinside]
          have hcount := newlines_take_le text offset
          omega
        · rw [List.take_of_length_le (by simp; omega), newlines_append_singleton, if_pos rfl]
          omega

/-- The start of the line an offset is in, and the bytes of that line in front of the offset. -/
theorem lineStarts_add_sinceNewline (text : Text) {offset : Nat} (hoffset : offset ≤ text.length) :
    (lineStarts text).getD (newlines (text.take offset)) 0 + sinceNewline (text.take offset) =
      offset := by
  induction text using List.reverseRecOn generalizing offset with
  | nil =>
      obtain rfl : offset = 0 := Nat.le_zero.mp hoffset
      rfl
  | append_singleton text ch ih =>
      rw [List.length_append, List.length_singleton] at hoffset
      by_cases hinside : offset ≤ text.length
      · rw [List.take_append_of_le_length hinside,
          getD_lineStarts_append text ch (newlines_take_le text offset)]
        exact ih hinside
      · have hlast := ih (Nat.le_refl text.length)
        rw [List.take_length] at hlast
        rw [List.take_of_length_le (by simp; omega), newlines_append_singleton,
          sinceNewline_append_singleton]
        by_cases hnewline : ch = newline
        · subst hnewline
          rw [if_pos rfl, if_pos rfl, getD_lineStarts_last]
          omega
        · rw [if_neg hnewline, if_neg hnewline, Nat.add_zero,
            getD_lineStarts_append text ch (Nat.le_refl _)]
          omega

/-- The search ends at the number of newlines in front of the offset. -/
theorem findLine_eq (text : Text) {offset : Nat} (hoffset : offset ≤ text.length)
    (low high : Nat) (hlow : low ≤ newlines (text.take offset))
    (hhigh : newlines (text.take offset) < high) (hcount : high ≤ newlines text + 1) :
    findLine (lineStarts text) offset low high = newlines (text.take offset) := by
  induction low, high using findLine.induct (lineStarts text) offset with
  | case1 low high hmore mid hmid ih =>
      rw [findLine, dif_pos hmore]
      have hrank := (lineStarts_le_iff text hoffset (by omega)).mp hmid
      rw [if_pos hmid]
      exact ih hrank hhigh hcount
  | case2 low high hmore mid hmid ih =>
      rw [findLine, dif_pos hmore]
      have hrank := mt (lineStarts_le_iff text hoffset (by omega)).mpr hmid
      rw [if_neg hmid]
      exact ih hlow (by omega) (by omega)
  | case3 low high hmore =>
      rw [findLine, dif_neg hmore]
      omega

theorem sourcePosition_eq (text : Text) {offset : Nat} (hoffset : offset ≤ text.length) :
    sourcePosition (sourceLoad text) offset = (lineOf text offset, columnOf text offset) := by
  have hcount : (sourceLoad text).lineCount = newlines text + 1 := countLines_eq text
  have hfind := findLine_eq text hoffset 0 (newlines text + 1) (Nat.zero_le _)
    (Nat.lt_succ_of_le (newlines_take_le text offset)) (Nat.le_refl _)
  have hstart := lineStarts_add_sinceNewline text hoffset
  simp only [sourcePosition, sourceLoad_lineOffsets, hcount, hfind, Prod.mk.injEq]
  unfold lineOf columnOf
  omega

/-! The counters of the lexer. -/

structure Located (lexer : Lexer) : Prop where
  line : lexer.line = lineOf lexer.source lexer.index
  column : lexer.column = columnOf lexer.source lexer.index

theorem take_succ_byteAt {text : Text} {index : Nat} (hlt : index < text.length) :
    text.take (index + 1) = text.take index ++ [byteAt text index] := by
  rw [List.take_add_one, byteAt, List.getElem?_eq_getElem hlt]
  rfl

theorem lineOf_succ {text : Text} {index : Nat} (hlt : index < text.length) :
    lineOf text (index + 1) =
      if byteAt text index = newline then lineOf text index + 1 else lineOf text index := by
  unfold lineOf
  rw [take_succ_byteAt hlt, newlines_append_singleton]
  split <;> omega

theorem columnOf_succ {text : Text} {index : Nat} (hlt : index < text.length) :
    columnOf text (index + 1) =
      if byteAt text index = newline then 1 else columnOf text index + 1 := by
  unfold columnOf
  rw [take_succ_byteAt hlt, sinceNewline_append_singleton]
  split <;> omega

namespace Located

theorem advance {lexer : Lexer} (hlocated : Located lexer) : Located lexer.advance := by
  by_cases hpeek : lexer.peek = 0
  · have hsame : lexer.advance = lexer := by
      rw [Lexer.advance, if_pos (by simpa using hpeek)]
    rw [hsame]
    exact hlocated
  · have hlt := Lexer.index_lt_of_peek hpeek
    have hline := lineOf_succ hlt
    have hcolumn := columnOf_succ hlt
    unfold Lexer.advance
    rw [if_neg (by simpa using hpeek)]
    by_cases hnewline : lexer.peek = newline
    · have hbyte : byteAt lexer.source lexer.index = newline := hnewline
      rw [if_pos (by simpa using hnewline)]
      rw [if_pos hbyte] at hline hcolumn
      exact ⟨by rw [hline, hlocated.line], hcolumn.symm⟩
    · have hbyte : byteAt lexer.source lexer.index ≠ newline := hnewline
      rw [if_neg (by simpa using hnewline)]
      rw [if_neg hbyte] at hline hcolumn
      exact ⟨by rw [hline, hlocated.line], by rw [hcolumn, hlocated.column]⟩

/-- A tail has no newline, so the column moves by its length. -/
theorem tail {lexer : Lexer} (hlocated : Located lexer) {inClass : UInt8 → Bool}
    (hclass : ∀ ch, inClass ch = true → isIdentifierContinue ch = true) :
    Located (lexer.moveTo (scanTail inClass lexer.source lexer.index)) := by
  obtain ⟨source, index, line, column⟩ := lexer
  induction index using scanTail.induct inClass source generalizing line column with
  | case1 index hmore ih =>
      have hbyte : byteAt source index ≠ newline := by
        intro hnewline
        have hcontinue := hclass _ hmore.2
        rw [hnewline] at hcontinue
        exact absurd hcontinue (by decide)
      have hline := lineOf_succ hmore.1
      have hcolumn := columnOf_succ hmore.1
      rw [if_neg hbyte] at hline hcolumn
      have hstep : Located ⟨source, index + 1, line, column + 1⟩ :=
        ⟨hlocated.line.trans hline.symm, by rw [hcolumn, ← hlocated.column]⟩
      have hrest := ih line (column + 1) hstep
      have hforward : index + 1 ≤ scanTail inClass source (index + 1) := by
        refine (scanTail_spec ?_ (index + 1)).1
        by_contra hzero
        exact absurd (hclass 0 (by simpa using hzero)) (by decide)
      simp only [Lexer.moveTo] at hrest ⊢
      rw [scanTail, dif_pos hmore]
      have hsum : column + 1 + (scanTail inClass source (index + 1) - (index + 1)) =
          column + (scanTail inClass source (index + 1) - index) := by omega
      rwa [hsum] at hrest
  | case2 index hmore =>
      have hstay : scanTail inClass source index = index := by rw [scanTail, dif_neg hmore]
      simp only [Lexer.moveTo, hstay, Nat.sub_self, Nat.add_zero]
      exact hlocated

theorem drives {before after : Lexer} (hdrives : Drives before after)
    (hlocated : Located before) : Located after := by
  induction hdrives with
  | refl lexer => exact hlocated
  | advance lexer => exact hlocated.advance
  | tail lexer hclass => exact hlocated.tail hclass
  | trans _ _ ihLeft ihRight => exact ihRight (ihLeft hlocated)

end Located

/-! The tokens stand where the lexer stood. -/

/-- The token has the offset and the counters of the lexer in front of it. -/
def StandsAt (start : Lexer) : Emitted → Prop
  | .token token =>
      token.offset = start.index ∧ token.line = start.line ∧ token.column = start.column
  | .diagnostic _ => True

theorem scanToken_standsAt (order : ArgumentOrder) (start : Lexer) :
    StandsAt start (scanToken order start).1 := by
  simp only [scanToken]
  split
  · exact ⟨rfl, rfl, rfl⟩
  split
  · exact ⟨rfl, rfl, rfl⟩
  split
  · dsimp only
    split <;> exact ⟨rfl, rfl, rfl⟩
  split
  · unfold Lexer.scanPair
    dsimp only
    split
    · exact ⟨rfl, rfl, rfl⟩
    · trivial
  split
  · unfold Lexer.scanPair
    dsimp only
    split
    · exact ⟨rfl, rfl, rfl⟩
    · trivial
  split
  · unfold Lexer.scanString
    dsimp only
    split
    · trivial
    · split
      · trivial
      · exact ⟨rfl, rfl, rfl⟩
  split
  · unfold Lexer.scanRawString
    dsimp only
    split
    · trivial
    · exact ⟨rfl, rfl, rfl⟩
  split
  · exact ⟨rfl, rfl, rfl⟩
  split
  · exact ⟨rfl, rfl, rfl⟩
  · trivial

structure Placed (text : Text) (token : Token) : Prop where
  inside : token.offset ≤ text.length
  line : token.line = lineOf text token.offset
  column : token.column = columnOf text token.offset

theorem Located.placed {start : Lexer} (hlocated : Located start)
    (hle : start.index ≤ start.source.length) {token : Token}
    (hstands : StandsAt start (.token token)) : Placed start.source token := by
  obtain ⟨hoffset, hline, hcolumn⟩ := hstands
  exact ⟨hoffset ▸ hle, by rw [hline, hoffset, hlocated.line],
    by rw [hcolumn, hoffset, hlocated.column]⟩

theorem scanAll_placed {order : Nat → ArgumentOrder} (fuel : Nat) {lexer final : Lexer}
    {scans : List Scan} (hlocated : Located lexer) (hle : lexer.index ≤ lexer.source.length)
    (hrun : scanAll order fuel lexer = some (scans, final)) :
    (∀ scan ∈ scans, ∀ token, scan.emitted = .token token → Placed lexer.source token) ∧
      Located final ∧ final.source = lexer.source ∧ final.index = lexer.source.length := by
  induction fuel generalizing lexer scans with
  | zero => exact absurd hrun (by simp [scanAll])
  | succ fuel ih =>
      have hdrives := Lexer.drives_skipWhitespace lexer
      have hskip := hdrives.moves
      have hstart := hlocated.drives hdrives
      have hbound := hskip.le_length hle
      rw [scanAll] at hrun
      split at hrun
      · dsimp only at hrun
        split at hrun
        · rename_i hend
          simp only [Option.some.injEq, Prod.mk.injEq] at hrun
          obtain ⟨rfl, rfl⟩ := hrun
          rw [hskip.source] at hend
          exact ⟨by simp, hstart, hskip.source, by omega⟩
        · rename_i hmore
          split at hrun
          · exact absurd hrun (by simp)
          · rename_i rest last hrest
            simp only [Option.some.injEq, Prod.mk.injEq] at hrun
            obtain ⟨rfl, rfl⟩ := hrun
            have hnext : Drives lexer (scanToken (order lexer.skipWhitespace.index)
                lexer.skipWhitespace).2 :=
              .trans hdrives (.trans (.advance _) (drives_scanToken _ _))
            have hmoves := hnext.moves
            obtain ⟨htokens, hfinal, hsource, hindex⟩ := ih (hlocated.drives hnext)
              (by rw [hmoves.source]; exact hmoves.le_length hle) hrest
            rw [hmoves.source] at htokens hsource hindex
            refine ⟨?_, hfinal, hsource, hindex⟩
            intro scan hscan token htoken
            rcases List.mem_cons.mp hscan with rfl | hscan
            · have hstands := scanToken_standsAt (order lexer.skipWhitespace.index)
                lexer.skipWhitespace
              have hemitted : (scanToken (order lexer.skipWhitespace.index)
                  lexer.skipWhitespace).1 = .token token := htoken
              rw [hemitted] at hstands
              rw [← hskip.source]
              exact hstart.placed (by rw [hskip.source]; exact hbound) hstands
            · exact htokens scan hscan token htoken
      · rename_i hend
        simp only [Option.some.injEq, Prod.mk.injEq] at hrun
        obtain ⟨rfl, rfl⟩ := hrun
        exact ⟨by simp, hlocated, rfl, by omega⟩

theorem tokens_placed {order : Nat → ArgumentOrder} {text : Text} {fuel : Nat} {output : Output}
    (hrun : lexerRun order text fuel = some output) :
    ∀ token ∈ output.tokens, Placed text token := by
  simp only [lexerRun, Option.map_eq_some_iff, Prod.exists] at hrun
  obtain ⟨scans, final, hrun, rfl⟩ := hrun
  have hinit : Located (lexerInit text) := ⟨rfl, rfl⟩
  obtain ⟨htokens, hfinal, hsource, hindex⟩ := scanAll_placed fuel hinit (Nat.zero_le _) hrun
  have htext : (lexerInit text).source = text := rfl
  rw [htext] at htokens hsource hindex
  intro token htoken
  rcases List.mem_append.mp htoken with hscanned | heof
  · obtain ⟨scan, hscan, hemitted⟩ := List.mem_filterMap.mp hscanned
    refine htokens scan hscan token ?_
    cases hcase : scan.emitted with
    | token other => simpa [hcase] using hemitted
    | diagnostic _ => simp [hcase] at hemitted
  · obtain rfl := List.mem_singleton.mp heof
    refine ⟨?_, ?_, ?_⟩
    · simp [hsource]
    · simp only [hsource, ← hindex]
      rw [hfinal.line, hsource]
    · simp only [hsource, ← hindex]
      rw [hfinal.column, hsource]

/-- The lexer ends on a source without a NUL, and its tokens stand where the table says. -/
theorem positions_consistent (order : Nat → ArgumentOrder) (text : Text) (hfree : NulFree text) :
    (∃ fuel output, lexerRun order text fuel = some output) ∧
      (∀ fuel output, lexerRun order text fuel = some output → ∀ token ∈ output.tokens,
        sourcePosition (sourceLoad text) token.offset = (token.line, token.column)) ∧
      ∀ offset ≤ text.length, sourcePosition (sourceLoad text) offset =
        (1 + newlines (text.take offset), 1 + sinceNewline (text.take offset)) := by
  refine ⟨?_, fun fuel output hrun token htoken => ?_, fun offset hoffset => ?_⟩
  · obtain ⟨run, hrun⟩ := @scanAll_terminates order (text.length + 1) (lexerInit text)
      hfree (Nat.zero_le _) (by simp [lexerInit])
    exact ⟨text.length + 1, ⟨run.1, run.2⟩, by rw [lexerRun, hrun]; rfl⟩
  · have hplaced := tokens_placed hrun token htoken
    rw [sourcePosition_eq text hplaced.inside, hplaced.line, hplaced.column]
  · exact sourcePosition_eq text hoffset

/-- A raw string over two lines, and an empty last line. -/
theorem positions_consistent_raw :
    (∃ fuel output, lexerRun (fun _ => .matchFirst) [96, 97, 10, 96, 32, 98, 10] fuel =
        some output) ∧
      (∀ fuel output, lexerRun (fun _ => .matchFirst) [96, 97, 10, 96, 32, 98, 10] fuel =
        some output → ∀ token ∈ output.tokens,
        sourcePosition (sourceLoad [96, 97, 10, 96, 32, 98, 10]) token.offset =
          (token.line, token.column)) ∧
      ∀ offset ≤ ([96, 97, 10, 96, 32, 98, 10] : Text).length,
        sourcePosition (sourceLoad [96, 97, 10, 96, 32, 98, 10]) offset =
          (1 + newlines (([96, 97, 10, 96, 32, 98, 10] : Text).take offset),
            1 + sinceNewline (([96, 97, 10, 96, 32, 98, 10] : Text).take offset)) :=
  positions_consistent (fun _ => .matchFirst) [96, 97, 10, 96, 32, 98, 10]
    (by unfold NulFree; decide +kernel)

example : sourcePosition (sourceLoad [96, 97, 10, 96, 32, 98, 10]) 5 = (2, 3) := by
  rw [sourcePosition_eq _ (by decide)]
  decide

end Lex

end Cnegative
