import Cnegative.Term.Utf8

namespace Cnegative

namespace Term

open Library

/-! The width of a string, and the offsets that a program steps through. -/

/-- `read.first` up to `apply`: what is stored in the slots of the code and of the step. -/
def widthSlots (value : CString) (length index : Nat) : Nat × Nat :=
  let invalid := (63, 1)
  let first := byteOf value index
  if first < 128 then (first, 1)
  else if (194 ≤ first ∧ first ≤ 223) ∧ index + 1 < length then
    let second := byteOf value (index + 1)
    if isContinuation second then (((first &&& 31) <<< 6) ||| (second &&& 63), 2) else invalid
  else if (224 ≤ first ∧ first ≤ 239) ∧ index + 2 < length then
    let second := byteOf value (index + 1)
    let third := byteOf value (index + 2)
    if isContinuation second && isContinuation third then
      ((((first &&& 15) <<< 12) ||| ((second &&& 63) <<< 6)) ||| (third &&& 63), 3)
    else invalid
  else if (240 ≤ first ∧ first ≤ 244) ∧ index + 3 < length then
    let second := byteOf value (index + 1)
    let third := byteOf value (index + 2)
    let fourth := byteOf value (index + 3)
    if isContinuation second && isContinuation third && isContinuation fourth then
      (((((first &&& 7) <<< 18) ||| ((second &&& 63) <<< 12)) ||| ((third &&& 63) <<< 6)) |||
        (fourth &&& 63), 4)
    else invalid
  else invalid

/-- `loop`, for a number of turns; `none` is a loop that has not ended by then. -/
def widthLoop (wcwidth : Int → Int) (value : CString) (length : Nat) :
    Nat → Nat → Int → Option Int
  | 0, _, _ => none
  | turns + 1, index, total =>
      if length ≤ index then some total
      else
        let slots := widthSlots value length index
        widthLoop wcwidth value length turns (index + slots.2)
          (wrap (total + codepointWidth wcwidth slots.1))

def stringWidth (wcwidth : Int → Int) : Option CString → Option Int
  | none => some 0
  | some value => widthLoop wcwidth value value.strlen (value.strlen + 1) 0 0

/-- The offsets on the way of `next_codepoint_offset` from an index, and the one where it
answers err. -/
def visitedFrom (value : Option CString) : Nat → Nat → Option (List Nat × Nat)
  | 0, _ => none
  | turns + 1, index =>
      match nextCodepointOffset value index with
      | none => some ([], index)
      | some next =>
          (visitedFrom value turns next).map fun visited => (index :: visited.1, visited.2)

def columnsAt (wcwidth : Int → Int) (value : Option CString) (index : Nat) : Int :=
  match decodeCodepoint value index with
  | none => 0
  | some code => codepointWidth wcwidth code

section

variable {value : CString} {index : Nat}

/-- The two decoders take the same way. -/
theorem stringDecodeAt_eq (hlt : index < value.strlen) :
    stringDecodeAt (some value) index =
      some ((widthSlots value value.strlen index).1,
        index + (widthSlots value value.strlen index).2) := by
  simp only [stringDecodeAt, widthSlots, if_pos hlt]
  split
  · rfl
  split
  · split <;> rfl
  split
  · split <;> rfl
  split
  · split <;> rfl
  · rfl

theorem stringDecodeAt_behind (hle : value.strlen ≤ index) :
    stringDecodeAt (some value) index = none := by
  simp only [stringDecodeAt, if_neg (Nat.not_lt.mpr hle)]

/-- A step goes forward, and not over the end. -/
theorem widthSlots_step (hlt : index < value.strlen) :
    0 < (widthSlots value value.strlen index).2 ∧
      index + (widthSlots value value.strlen index).2 ≤ value.strlen := by
  have hdecode := stringDecodeAt_cases hlt
  rw [stringDecodeAt_eq hlt] at hdecode
  generalize widthSlots value value.strlen index = slots at hdecode
  obtain ⟨code, step⟩ := slots
  generalize hanswer : some (code, index + step) = answer at hdecode
  cases hdecode with
  | one _ | two _ _ _ | three _ _ _ _ | four _ _ _ _ _ | invalid _ _ _ _ =>
      obtain ⟨-, hstep⟩ := Prod.mk.inj (Option.some.inj hanswer)
      dsimp only
      omega

theorem wrap_add_wrap (left right : Int) : wrap (wrap left + right) = wrap (left + right) :=
  Int.bmod_add_bmod

/-- From an offset on, the loop adds up the columns at the offsets that are visited. -/
theorem widthLoop_eq (wcwidth : Int → Int) (turns : Nat) (hle : index ≤ value.strlen)
    (hturns : value.strlen < index + turns) (total : Int) :
    ∃ offsets, visitedFrom (some value) turns index = some (offsets, value.strlen) ∧
      (∀ offset ∈ offsets, index ≤ offset ∧ offset < value.strlen) ∧
      (offsets ++ [value.strlen]).Pairwise (· < ·) ∧
      (∀ offset ∈ offsets, (decodeCodepoint (some value) offset).isSome) ∧
      widthLoop wcwidth value value.strlen turns index (wrap total) =
        some (wrap (total + (offsets.map (columnsAt wcwidth (some value))).sum)) := by
  induction turns generalizing index total with
  | zero => omega
  | succ turns ih =>
      obtain hlt | rfl := Nat.lt_or_eq_of_le hle
      · obtain ⟨hpos, hend⟩ := widthSlots_step hlt
        have hdecode := stringDecodeAt_eq hlt
        obtain ⟨offsets, hvisited, hbounds, hsorted, hdecodes, hloop⟩ := ih hend (by omega)
          (total + codepointWidth wcwidth (widthSlots value value.strlen index).1)
        have hnext : nextCodepointOffset (some value) index =
            some (index + (widthSlots value value.strlen index).2) := by
          rw [nextCodepointOffset, hdecode, Option.map_some]
        have hcode : decodeCodepoint (some value) index =
            some (widthSlots value value.strlen index).1 := by
          rw [decodeCodepoint, hdecode, Option.map_some]
        refine ⟨index :: offsets, ?_, ?_, ?_, ?_, ?_⟩
        · simp only [visitedFrom, hnext, hvisited, Option.map_some]
        · intro offset hoffset
          obtain rfl | hmem := List.mem_cons.mp hoffset
          · exact ⟨Nat.le_refl _, hlt⟩
          · have hbound := hbounds offset hmem
            omega
        · refine List.pairwise_cons.mpr ⟨fun offset hoffset => ?_, hsorted⟩
          obtain hmem | hlast := List.mem_append.mp hoffset
          · have hbound := hbounds offset hmem
            omega
          · rw [List.mem_singleton.mp hlast]
            exact hlt
        · intro offset hoffset
          obtain rfl | hmem := List.mem_cons.mp hoffset
          · rw [hcode, Option.isSome_some]
          · exact hdecodes offset hmem
        · have hcolumns : columnsAt wcwidth (some value) index =
              codepointWidth wcwidth (widthSlots value value.strlen index).1 := by
            simp only [columnsAt, hcode]
          simp only [widthLoop, if_neg (Nat.not_le.mpr hlt)]
          rw [wrap_add_wrap, hloop, List.map_cons, List.sum_cons, hcolumns, Int.add_assoc]
      · refine ⟨[], ?_, by simp, List.pairwise_singleton _ _, by simp, ?_⟩
        · have hnext : nextCodepointOffset (some value) value.strlen = none := by
            rw [nextCodepointOffset, stringDecodeAt_behind (Nat.le_refl _), Option.map_none]
          simp only [visitedFrom, hnext]
        · simp only [widthLoop, if_pos (Nat.le_refl _), List.map_nil, List.sum_nil, Int.add_zero]

end

theorem codepointWidth_bounds {wcwidth : Int → Int} (hwidths : ∀ code, wcwidth code ≤ 2)
    (code : Int) : 0 ≤ codepointWidth wcwidth code ∧ codepointWidth wcwidth code ≤ 2 := by
  have hwidth := hwidths code
  unfold codepointWidth
  split
  · omega
  split
  · omega
  · split <;> omega

theorem columns_sum_bounds {wcwidth : Int → Int} (hwidths : ∀ code, wcwidth code ≤ 2)
    (value : Option CString) (offsets : List Nat) :
    0 ≤ (offsets.map (columnsAt wcwidth value)).sum ∧
      (offsets.map (columnsAt wcwidth value)).sum ≤ 2 * offsets.length := by
  induction offsets with
  | nil => simp
  | cons offset offsets ih =>
      have hcolumns : 0 ≤ columnsAt wcwidth value offset ∧ columnsAt wcwidth value offset ≤ 2 := by
        unfold columnsAt
        split
        · omega
        · exact codepointWidth_bounds hwidths _
      simp only [List.map_cons, List.sum_cons, List.length_cons]
      push_cast
      omega

/-- The width of a string is the sum of the columns at the offsets that are visited, as a word;
and the sum itself where it fits. -/
theorem string_width_eq_sum (wcwidth : Int → Int) (value : CString) :
    ∃ offsets, visitedFrom (some value) (value.strlen + 1) 0 = some (offsets, value.strlen) ∧
      (offsets ++ [value.strlen]).Pairwise (· < ·) ∧
      (∀ offset ∈ offsets, (decodeCodepoint (some value) offset).isSome) ∧
      stringWidth wcwidth (some value) =
        some (wrap (offsets.map (columnsAt wcwidth (some value))).sum) ∧
      ((∀ code, wcwidth code ≤ 2) → value.strlen < 2 ^ 62 →
        stringWidth wcwidth (some value) =
          some (offsets.map (columnsAt wcwidth (some value))).sum) := by
  obtain ⟨offsets, hvisited, hbounds, hsorted, hdecodes, hloop⟩ :=
    widthLoop_eq wcwidth (value.strlen + 1) (Nat.zero_le value.strlen) (by omega) 0
  rw [Int.zero_add] at hloop
  refine ⟨offsets, hvisited, hsorted, hdecodes, hloop, fun hwidths hlength => ?_⟩
  have hnodup : offsets.Nodup :=
    (hsorted.sublist (List.sublist_append_left _ _)).imp Nat.ne_of_lt
  have hcount : offsets.length ≤ (List.range value.strlen).length :=
    (List.subperm_of_subset hnodup fun offset hoffset =>
      List.mem_range.mpr (hbounds offset hoffset).2).length_le
  rw [List.length_range] at hcount
  obtain ⟨hlow, hhigh⟩ := columns_sum_bounds hwidths (some value) offsets
  rw [show stringWidth wcwidth (some value) = _ from hloop, wrap_of_range (by omega) (by omega)]

/-- A stray lead byte in front of the euro sign. -/
theorem string_width_eq_sum_stray :
    ∃ offsets, visitedFrom (some ⟨[0xC3, 0xE2, 0x82, 0xAC], by decide +kernel⟩) 5 0 =
        some (offsets, 4) ∧
      stringWidth (fun _ => 1) (some ⟨[0xC3, 0xE2, 0x82, 0xAC], by decide +kernel⟩) =
        some (offsets.map (columnsAt (fun _ => 1)
          (some ⟨[0xC3, 0xE2, 0x82, 0xAC], by decide +kernel⟩))).sum := by
  obtain ⟨offsets, hvisited, -, -, -, hwidth⟩ :=
    string_width_eq_sum (fun _ => 1) ⟨[0xC3, 0xE2, 0x82, 0xAC], by decide +kernel⟩
  exact ⟨offsets, hvisited, hwidth (fun _ => by decide) (by decide)⟩

end Term

end Cnegative
