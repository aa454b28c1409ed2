import Cnegative.Library.Utf8
import Cnegative.Runtime.CString
import Cnegative.Term.Render

namespace Cnegative

namespace Term

open Library.Utf8

/-! The decoder of `std.term`. -/

def byteOf (value : CString) (offset : Nat) : Nat := (value.byteAt offset).toNat

def isContinuation (byte : Nat) : Bool := byte &&& 192 == 128

/-- `cn_term_string_decode_at`: the code and the index behind it; `none` is err. -/
def stringDecodeAt (value : Option CString) (index : Nat) : Option (Nat × Nat) :=
  match value with
  | none => none
  | some value =>
      let length := value.strlen
      let invalid := some (63, index + 1)
      if index < length then
        let first := byteOf value index
        if first < 128 then some (first, index + 1)
        else if (194 ≤ first ∧ first ≤ 223) ∧ index + 1 < length then
          let second := byteOf value (index + 1)
          if isContinuation second then
            some (((first &&& 31) <<< 6) ||| (second &&& 63), index + 2)
          else invalid
        else if (224 ≤ first ∧ first ≤ 239) ∧ index + 2 < length then
          let second := byteOf value (index + 1)
          let third := byteOf value (index + 2)
          if isContinuation second && isContinuation third then
            some ((((first &&& 15) <<< 12) ||| ((second &&& 63) <<< 6)) ||| (third &&& 63),
              index + 3)
          else invalid
        else if (240 ≤ first ∧ first ≤ 244) ∧ index + 3 < length then
          let second := byteOf value (index + 1)
          let third := byteOf value (index + 2)
          let fourth := byteOf value (index + 3)
          if isContinuation second && isContinuation third && isContinuation fourth then
            some (((((first &&& 7) <<< 18) ||| ((second &&& 63) <<< 12)) |||
              ((third &&& 63) <<< 6)) ||| (fourth &&& 63), index + 4)
          else invalid
        else invalid
      else none

def decodeCodepoint (value : Option CString) (index : Nat) : Option Nat :=
  (stringDecodeAt value index).map Prod.fst

def nextCodepointOffset (value : Option CString) (index : Nat) : Option Nat :=
  (stringDecodeAt value index).map Prod.snd

/-! Shifts and masks as arithmetic. -/

theorem isContinuation_iff : ∀ byte < 256, isContinuation byte = true ↔ Tail byte := by
  unfold Tail
  decide +kernel

theorem two_tag : ∀ bits < 32, bits ||| 192 = 0xC0 + bits := by decide

theorem three_tag : ∀ bits < 16, bits ||| 224 = 0xE0 + bits := by decide

theorem four_tag : ∀ bits < 8, bits ||| 240 = 0xF0 + bits := by decide

theorem tail_tag : ∀ bits < 64, bits ||| 128 = 0x80 + bits := by decide

theorem writeCode_eq {code : Nat} (hcode : code ≤ 0x10FFFF) : writeCode code = encode code := by
  have hlow : ∀ value : Nat, value &&& 63 = value % 64 := fun value =>
    Nat.and_two_pow_sub_one_eq_mod value 6
  have htail : ∀ value : Nat, (value &&& 63) ||| 128 = 0x80 + value % 64 := by
    intro value
    rw [hlow]
    exact tail_tag _ (Nat.mod_lt _ (by decide))
  unfold writeCode encode
  rw [if_neg (by omega)]
  simp only [Int.toNat_natCast, htail, Nat.shiftRight_eq_div_pow]
  by_cases hone : code ≤ 127
  · rw [if_pos hone, if_pos (by omega : code < 0x80)]
  rw [if_neg hone, if_neg (by omega : ¬ code < 0x80)]
  by_cases htwo : code ≤ 2047
  · rw [if_pos htwo, if_pos (by omega : code < 0x800), two_tag _ (by omega)]
  rw [if_neg htwo, if_neg (by omega : ¬ code < 0x800)]
  by_cases hthree : code ≤ 65535
  · rw [if_pos hthree, if_pos (by omega : code < 0x10000), three_tag _ (by omega)]
  · rw [if_neg hthree, if_neg (by omega : ¬ code < 0x10000), if_pos (by omega : code ≤ 1114111),
      four_tag _ (by omega)]

theorem shift_or {high low bits : Nat} (hlow : low < 2 ^ bits) :
    (high <<< bits) ||| low = high * 2 ^ bits + low := by
  rw [← Nat.shiftLeft_add_eq_or_of_lt hlow, Nat.shiftLeft_eq]

theorem two_bits {first second : Nat} (hfirst : 194 ≤ first ∧ first ≤ 223)
    (hsecond : Tail second) :
    ((first &&& 31) <<< 6) ||| (second &&& 63) = two first second := by
  unfold Tail at hsecond
  rw [Nat.and_two_pow_sub_one_eq_mod first 5, Nat.and_two_pow_sub_one_eq_mod second 6,
    shift_or (by omega)]
  unfold two
  omega

theorem three_bits {first second third : Nat} (hfirst : 224 ≤ first ∧ first ≤ 239)
    (hsecond : Tail second) (hthird : Tail third) :
    (((first &&& 15) <<< 12) ||| ((second &&& 63) <<< 6)) ||| (third &&& 63) =
      three first second third := by
  unfold Tail at hsecond hthird
  rw [Nat.and_two_pow_sub_one_eq_mod first 4, Nat.and_two_pow_sub_one_eq_mod second 6,
    Nat.and_two_pow_sub_one_eq_mod third 6, Nat.or_assoc, shift_or (by omega : third % 2 ^ 6 < 2 ^ 6),
    shift_or (by omega)]
  unfold three
  omega

theorem four_bits {first second third fourth : Nat} (hfirst : 240 ≤ first ∧ first ≤ 244)
    (hsecond : Tail second) (hthird : Tail third) (hfourth : Tail fourth) :
    ((((first &&& 7) <<< 18) ||| ((second &&& 63) <<< 12)) ||| ((third &&& 63) <<< 6)) |||
      (fourth &&& 63) = four first second third fourth := by
  unfold Tail at hsecond hthird hfourth
  rw [Nat.and_two_pow_sub_one_eq_mod first 3, Nat.and_two_pow_sub_one_eq_mod second 6,
    Nat.and_two_pow_sub_one_eq_mod third 6, Nat.and_two_pow_sub_one_eq_mod fourth 6,
    Nat.or_assoc, shift_or (by omega : fourth % 2 ^ 6 < 2 ^ 6), Nat.or_assoc,
    shift_or (by omega : third % 2 ^ 6 * 2 ^ 6 + fourth % 2 ^ 6 < 2 ^ 12), shift_or (by omega)]
  unfold four
  omega

/-! What the decoder finds. -/

/-- The bytes of a stretch as numbers. -/
def piece (value : CString) (index length : Nat) : List Nat :=
  ((value.bytes.drop index).take length).map UInt8.toNat

def StartsWellFormed (value : CString) (index : Nat) : Prop :=
  ∃ length, index + length ≤ value.strlen ∧ WellFormed (piece value index length)

/-- The answer is a scalar value with its bytes, or `?` where none begins. -/
def DecodesRight (value : CString) (index : Nat) : Prop :=
  ∃ code next, stringDecodeAt (some value) index = some (code, next) ∧
    (Scalar code ∧ index < next ∧ next ≤ value.strlen ∧
        piece value index (next - index) = writeCode code ∨
      code = 63 ∧ next = index + 1 ∧ ¬ StartsWellFormed value index)

/-- A lead byte with all its continuation bytes, of which the second one is out of range:
an overlong form, a surrogate or a code above the maximum. -/
def Overlooked (value : CString) (index : Nat) : Prop :=
  index + 2 < value.strlen ∧ Tail (byteOf value (index + 1)) ∧ Tail (byteOf value (index + 2)) ∧
    ((byteOf value index = 0xE0 ∧ byteOf value (index + 1) < 0xA0 ∨
        byteOf value index = 0xED ∧ 0x9F < byteOf value (index + 1)) ∨
      (index + 3 < value.strlen ∧ Tail (byteOf value (index + 3))) ∧
        (byteOf value index = 0xF0 ∧ byteOf value (index + 1) < 0x90 ∨
          byteOf value index = 0xF4 ∧ 0x8F < byteOf value (index + 1)))

section Pieces

variable {value : CString} {index : Nat}

theorem byteOf_lt (value : CString) (index : Nat) : byteOf value index < 256 :=
  (value.byteAt index).toNat_lt

theorem piece_succ {length : Nat} (hlt : index < value.strlen) :
    piece value index (length + 1) = byteOf value index :: piece value (index + 1) length := by
  rw [piece, value.drop_eq_cons hlt]
  rfl

theorem piece_zero : piece value index 0 = [] := rfl

theorem piece_one (hlt : index < value.strlen) : piece value index 1 = [byteOf value index] := by
  rw [piece_succ hlt, piece_zero]

theorem piece_two (hlt : index + 1 < value.strlen) :
    piece value index 2 = [byteOf value index, byteOf value (index + 1)] := by
  rw [piece_succ (by omega), piece_one hlt]

theorem piece_three (hlt : index + 2 < value.strlen) :
    piece value index 3 =
      [byteOf value index, byteOf value (index + 1), byteOf value (index + 2)] := by
  rw [piece_succ (by omega), piece_two hlt]

theorem piece_four (hlt : index + 3 < value.strlen) :
    piece value index 4 = [byteOf value index, byteOf value (index + 1),
      byteOf value (index + 2), byteOf value (index + 3)] := by
  rw [piece_succ (by omega), piece_three hlt]

theorem length_piece {length : Nat} (hle : index + length ≤ value.strlen) :
    (piece value index length).length = length := by
  rw [piece, List.length_map, List.length_take, List.length_drop]
  unfold CString.strlen at hle
  omega

/-- A sequence begins at an index, by the bytes there. -/
theorem startsWellFormed_cases (hstarts : StartsWellFormed value index) :
    byteOf value index < 0x80 ∨
    index + 1 < value.strlen ∧ WellFormed [byteOf value index, byteOf value (index + 1)] ∨
    index + 2 < value.strlen ∧ WellFormed [byteOf value index, byteOf value (index + 1),
      byteOf value (index + 2)] ∨
    index + 3 < value.strlen ∧ WellFormed [byteOf value index, byteOf value (index + 1),
      byteOf value (index + 2), byteOf value (index + 3)] := by
  obtain ⟨length, hle, hwellFormed⟩ := hstarts
  have hlength := length_piece hle
  match length, hle, hwellFormed, hlength with
  | 0, _, hwellFormed, _ =>
      rw [piece_zero] at hwellFormed
      cases hwellFormed
  | 1, hle, hwellFormed, _ =>
      rw [piece_one hle] at hwellFormed
      cases hwellFormed with
      | one hfirst => exact Or.inl hfirst
  | 2, hle, hwellFormed, _ =>
      rw [piece_two hle] at hwellFormed
      exact Or.inr (Or.inl ⟨hle, hwellFormed⟩)
  | 3, hle, hwellFormed, _ =>
      rw [piece_three hle] at hwellFormed
      exact Or.inr (Or.inr (Or.inl ⟨hle, hwellFormed⟩))
  | 4, hle, hwellFormed, _ =>
      rw [piece_four hle] at hwellFormed
      exact Or.inr (Or.inr (Or.inr ⟨hle, hwellFormed⟩))
  | length + 5, _, hwellFormed, hlength =>
      generalize piece value index (length + 5) = bytes at hwellFormed hlength
      cases hwellFormed <;> simp at hlength

inductive Decoded (value : CString) (index : Nat) : Option (Nat × Nat) → Prop
  | one (hfirst : byteOf value index < 0x80) :
      Decoded value index (some (byteOf value index, index + 1))
  | two (hfirst : 0xC2 ≤ byteOf value index ∧ byteOf value index ≤ 0xDF)
      (hlt : index + 1 < value.strlen) (hsecond : Tail (byteOf value (index + 1))) :
      Decoded value index
        (some (Library.Utf8.two (byteOf value index) (byteOf value (index + 1)), index + 2))
  | three (hfirst : 0xE0 ≤ byteOf value index ∧ byteOf value index ≤ 0xEF)
      (hlt : index + 2 < value.strlen) (hsecond : Tail (byteOf value (index + 1)))
      (hthird : Tail (byteOf value (index + 2))) :
      Decoded value index (some (Library.Utf8.three (byteOf value index)
        (byteOf value (index + 1)) (byteOf value (index + 2)), index + 3))
  | four (hfirst : 0xF0 ≤ byteOf value index ∧ byteOf value index ≤ 0xF4)
      (hlt : index + 3 < value.strlen) (hsecond : Tail (byteOf value (index + 1)))
      (hthird : Tail (byteOf value (index + 2))) (hfourth : Tail (byteOf value (index + 3))) :
      Decoded value index (some (Library.Utf8.four (byteOf value index)
        (byteOf value (index + 1)) (byteOf value (index + 2)) (byteOf value (index + 3)),
        index + 4))
  | invalid (hone : ¬ byteOf value index < 0x80)
      (htwo : ¬ ((0xC2 ≤ byteOf value index ∧ byteOf value index ≤ 0xDF) ∧
        index + 1 < value.strlen ∧ Tail (byteOf value (index + 1))))
      (hthree : ¬ ((0xE0 ≤ byteOf value index ∧ byteOf value index ≤ 0xEF) ∧
        index + 2 < value.strlen ∧ Tail (byteOf value (index + 1)) ∧
        Tail (byteOf value (index + 2))))
      (hfour : ¬ ((0xF0 ≤ byteOf value index ∧ byteOf value index ≤ 0xF4) ∧
        index + 3 < value.strlen ∧ Tail (byteOf value (index + 1)) ∧
        Tail (byteOf value (index + 2)) ∧ Tail (byteOf value (index + 3)))) :
      Decoded value index (some (63, index + 1))

theorem isContinuation_byteOf (value : CString) (index : Nat) :
    isContinuation (byteOf value index) = true ↔ Tail (byteOf value index) :=
  isContinuation_iff _ (byteOf_lt value index)

theorem stringDecodeAt_cases (hlt : index < value.strlen) :
    Decoded value index (stringDecodeAt (some value) index) := by
  simp only [stringDecodeAt, if_pos hlt]
  split
  · exact .one (by assumption)
  rename_i hone
  split
  · rename_i htwo
    split
    · rename_i hsecond
      rw [isContinuation_byteOf] at hsecond
      rw [two_bits htwo.1 hsecond]
      exact .two htwo.1 htwo.2 hsecond
    · rename_i hsecond
      rw [isContinuation_byteOf] at hsecond
      exact .invalid hone (fun h => hsecond h.2.2) (by omega) (by omega)
  rename_i htwo
  split
  · rename_i hthree
    split
    · rename_i htails
      simp only [Bool.and_eq_true, isContinuation_byteOf] at htails
      rw [three_bits hthree.1 htails.1 htails.2]
      exact .three hthree.1 hthree.2 htails.1 htails.2
    · rename_i htails
      simp only [Bool.and_eq_true, isContinuation_byteOf] at htails
      exact .invalid hone (by omega) (fun h => htails h.2.2) (by omega)
  rename_i hthree
  split
  · rename_i hfour
    split
    · rename_i htails
      simp only [Bool.and_eq_true, isContinuation_byteOf] at htails
      rw [four_bits hfour.1 htails.1.1 htails.1.2 htails.2]
      exact .four hfour.1 hfour.2 htails.1.1 htails.1.2 htails.2
    · rename_i htails
      simp only [Bool.and_eq_true, isContinuation_byteOf] at htails
      refine .invalid hone (by omega) (by omega) fun h => htails ?_
      exact ⟨⟨h.2.2.1, h.2.2.2.1⟩, h.2.2.2.2⟩
  · rename_i hfour
    exact .invalid hone (fun h => htwo ⟨h.1, h.2.1⟩) (fun h => hthree ⟨h.1, h.2.1⟩)
      fun h => hfour ⟨h.1, h.2.1⟩

/-- An answer with these bytes is right just when they are the sequence of its code. -/
theorem decodesRight_of_some {code length : Nat} (hlength : 1 < length)
    (hle : index + length ≤ value.strlen)
    (hdecode : stringDecodeAt (some value) index = some (code, index + length)) :
    DecodesRight value index ↔ Scalar code ∧ encode code = piece value index length := by
  unfold DecodesRight
  rw [hdecode]
  constructor
  · rintro ⟨code, next, heq, hright⟩
    obtain ⟨rfl, rfl⟩ := Prod.mk.inj (Option.some.inj heq)
    rcases hright with ⟨hscalar, -, -, hbytes⟩ | ⟨-, hnext, -⟩
    · rw [Nat.add_sub_cancel_left, writeCode_eq hscalar.le] at hbytes
      exact ⟨hscalar, hbytes.symm⟩
    · omega
  · rintro ⟨hscalar, hbytes⟩
    refine ⟨code, index + length, rfl, Or.inl ⟨hscalar, by omega, hle, ?_⟩⟩
    rw [Nat.add_sub_cancel_left, writeCode_eq hscalar.le, hbytes]

theorem decodesRight_iff (hlt : index < value.strlen) :
    DecodesRight value index ↔ ¬ Overlooked value index := by
  have hcases := stringDecodeAt_cases hlt
  generalize hdecode : stringDecodeAt (some value) index = decoded at hcases
  cases hcases with
  | one hfirst =>
      refine iff_of_true ⟨_, _, hdecode, Or.inl ⟨⟨by omega, by omega⟩, by omega, hlt, ?_⟩⟩ ?_
      · rw [Nat.add_sub_cancel_left, piece_one hlt, writeCode_eq (by omega), encode,
          if_pos hfirst]
      · unfold Overlooked
        omega
  | two hfirst hsecondLt hsecond =>
      refine iff_of_true ?_ ?_
      · rw [decodesRight_of_some (by decide) hsecondLt hdecode, piece_two hsecondLt]
        exact encode_two hfirst hsecond
      · unfold Overlooked
        omega
  | three hfirst hthirdLt hsecond hthird =>
      rw [decodesRight_of_some (by decide) hthirdLt hdecode, piece_three hthirdLt,
        encode_three_iff hfirst hsecond hthird]
      constructor
      · rintro ⟨-, -, -, hshort, hsurrogate⟩ hoverlooked
        unfold Overlooked at hoverlooked
        omega
      · intro hoverlooked
        refine .three hfirst hsecond hthird (fun hlead => ?_) fun hlead => ?_
        · by_contra hlow
          exact hoverlooked ⟨hthirdLt, hsecond, hthird, Or.inl (Or.inl ⟨hlead, by omega⟩)⟩
        · by_contra hhigh
          exact hoverlooked ⟨hthirdLt, hsecond, hthird, Or.inl (Or.inr ⟨hlead, by omega⟩)⟩
  | four hfirst hfourthLt hsecond hthird hfourth =>
      rw [decodesRight_of_some (by decide) hfourthLt hdecode, piece_four hfourthLt,
        encode_four_iff hfirst hsecond hthird hfourth]
      constructor
      · rintro ⟨-, -, -, -, hshort, hlarge⟩ hoverlooked
        unfold Overlooked at hoverlooked
        omega
      · intro hoverlooked
        refine .four hfirst hsecond hthird hfourth (fun hlead => ?_) fun hlead => ?_
        · by_contra hlow
          exact hoverlooked ⟨by omega, hsecond, hthird,
            Or.inr ⟨⟨hfourthLt, hfourth⟩, Or.inl ⟨hlead, by omega⟩⟩⟩
        · by_contra hhigh
          exact hoverlooked ⟨by omega, hsecond, hthird,
            Or.inr ⟨⟨hfourthLt, hfourth⟩, Or.inr ⟨hlead, by omega⟩⟩⟩
  | invalid hone htwo hthree hfour =>
      refine iff_of_true ⟨_, _, hdecode, Or.inr ⟨rfl, rfl, fun hstarts => ?_⟩⟩ ?_
      · rcases startsWellFormed_cases hstarts with hascii | ⟨hle, hwellFormed⟩ |
          ⟨hle, hwellFormed⟩ | ⟨hle, hwellFormed⟩
        · exact hone hascii
        · cases hwellFormed with
          | two hfirst hsecond => exact htwo ⟨hfirst, hle, hsecond⟩
        · cases hwellFormed with
          | three hfirst hsecond hthird _ _ => exact hthree ⟨hfirst, hle, hsecond, hthird⟩
        · cases hwellFormed with
          | four hfirst hsecond hthird hfourth _ _ =>
              exact hfour ⟨hfirst, hle, hsecond, hthird, hfourth⟩
      · rintro ⟨hthirdLt, hsecond, hthird, (hlead | hlead) | ⟨⟨hlast, hfourth⟩, hlead⟩⟩
        · exact hthree ⟨by omega, hthirdLt, hsecond, hthird⟩
        · exact hthree ⟨by omega, hthirdLt, hsecond, hthird⟩
        · exact hfour ⟨by omega, hlast, hsecond, hthird, hfourth⟩

end Pieces

/-! Decoding what was written. -/

theorem byteOf_eq {value : CString} {bytes : List Nat}
    (hbytes : value.bytes.map UInt8.toNat = bytes) (index : Nat) :
    byteOf value index = bytes.getD index 0 := by
  rw [byteOf, CString.byteAt, Lex.byteAt, ← hbytes]
  simp only [List.getD_eq_getElem?_getD, List.getElem?_map]
  cases value.bytes[index]? <;> rfl

theorem decode_wellFormed {value : CString} {bytes : List Nat} (hwellFormed : WellFormed bytes)
    (hbytes : value.bytes.map UInt8.toNat = bytes) :
    stringDecodeAt (some value) 0 = some (codeOf bytes, bytes.length) := by
  have hbyte := byteOf_eq hbytes
  have hlength : value.strlen = bytes.length := by
    rw [← hbytes, List.length_map]
    rfl
  have hpos : 0 < value.strlen := by
    rw [hlength]
    cases hwellFormed <;> simp
  have hcases := stringDecodeAt_cases hpos
  generalize stringDecodeAt (some value) 0 = decoded at hcases
  -- The first byte of the sequence leaves one way through the decoder.
  cases hwellFormed with
  | @one first hfirst =>
      have h0 : byteOf value 0 = first := hbyte 0
      cases hcases with
      | one _ => rw [h0]; rfl
      | two hlead _ _ => omega
      | three hlead _ _ _ => omega
      | four hlead _ _ _ _ => omega
      | invalid hone _ _ _ => omega
  | @two first second hfirst hsecond =>
      have h0 : byteOf value 0 = first := hbyte 0
      have h1 : byteOf value (0 + 1) = second := hbyte 1
      have hlt : 0 + 1 < value.strlen := by simp [hlength]
      cases hcases with
      | one hlead => omega
      | two _ _ _ => rw [h0, h1, codeOf_two]; rfl
      | three hlead _ _ _ => omega
      | four hlead _ _ _ _ => omega
      | invalid _ htwo _ _ => exact absurd ⟨h0 ▸ hfirst, hlt, h1 ▸ hsecond⟩ htwo
  | @three first second third hfirst hsecond hthird _ _ =>
      have h0 : byteOf value 0 = first := hbyte 0
      have h1 : byteOf value (0 + 1) = second := hbyte 1
      have h2 : byteOf value (0 + 2) = third := hbyte 2
      have hlt : 0 + 2 < value.strlen := by simp [hlength]
      cases hcases with
      | one hlead => omega
      | two hlead _ _ => omega
      | three _ _ _ _ => rw [h0, h1, h2, codeOf_three]; rfl
      | four hlead _ _ _ _ => omega
      | invalid _ _ hthree _ =>
          exact absurd ⟨h0 ▸ hfirst, hlt, h1 ▸ hsecond, h2 ▸ hthird⟩ hthree
  | @four first second third fourth hfirst hsecond hthird hfourth _ _ =>
      have h0 : byteOf value 0 = first := hbyte 0
      have h1 : byteOf value (0 + 1) = second := hbyte 1
      have h2 : byteOf value (0 + 2) = third := hbyte 2
      have h3 : byteOf value (0 + 3) = fourth := hbyte 3
      have hlt : 0 + 3 < value.strlen := by simp [hlength]
      cases hcases with
      | one hlead => omega
      | two hlead _ _ => omega
      | three hlead _ _ _ => omega
      | four _ _ _ _ _ => rw [h0, h1, h2, h3, codeOf_four]; rfl
      | invalid _ _ _ hfour =>
          exact absurd ⟨h0 ▸ hfirst, hlt, h1 ▸ hsecond, h2 ▸ hthird, h3 ▸ hfourth⟩ hfour

/-- The exact condition at an index, and the round trip of every scalar value but NUL. -/
theorem utf8_round_trip_iff (value : CString) (index : Nat) (hindex : index < value.strlen) :
    (DecodesRight value index ↔ ¬ Overlooked value index) ∧
      ∀ (code : Nat) (written : CString), Scalar code → code ≠ 0 →
        written.bytes.map UInt8.toNat = writeCode code →
          stringDecodeAt (some written) 0 = some (code, (writeCode code).length) := by
  refine ⟨decodesRight_iff hindex, fun code written hscalar _ hwritten => ?_⟩
  rw [writeCode_eq hscalar.le] at hwritten ⊢
  rw [decode_wellFormed (wellFormed_encode hscalar) hwritten, codeOf_encode]

/-- The euro sign in front of an `x`. -/
theorem utf8_round_trip_euro :
    (DecodesRight ⟨[0xE2, 0x82, 0xAC, 0x78], by decide +kernel⟩ 0 ↔
      ¬ Overlooked ⟨[0xE2, 0x82, 0xAC, 0x78], by decide +kernel⟩ 0) ∧
      ∀ (code : Nat) (written : CString), Scalar code → code ≠ 0 →
        written.bytes.map UInt8.toNat = writeCode code →
          stringDecodeAt (some written) 0 = some (code, (writeCode code).length) :=
  utf8_round_trip_iff ⟨[0xE2, 0x82, 0xAC, 0x78], by decide +kernel⟩ 0 (by decide)

/-- The overlong form of NUL is taken for a code. -/
theorem overlong_form_decoded :
    ¬ (∀ value index, index < CString.strlen value → DecodesRight value index) ∧
      stringDecodeAt (some ⟨[0xE0, 0x80, 0x80], by decide +kernel⟩) 0 = some (0, 3) := by
  refine ⟨fun hright => ?_, by decide +kernel⟩
  have hlt : 0 < CString.strlen ⟨[0xE0, 0x80, 0x80], by decide +kernel⟩ := by decide
  refine (decodesRight_iff hlt).mp (hright _ 0 hlt) ⟨by decide, ?_, ?_, Or.inl (Or.inl ?_)⟩
  · exact ⟨by decide, by decide +kernel⟩
  · exact ⟨by decide, by decide +kernel⟩
  · exact ⟨by decide, by decide +kernel⟩

end Term

end Cnegative
