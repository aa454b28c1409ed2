import Cnegative.Runtime.Bytes

namespace Cnegative

namespace Bytes

open Library

/-! What a byte buffer is for: a list of bytes. -/

/-- The bytes that a slice stands for; a slice of the buffer is a part of the list. -/
def Slice.meaning (slice : Slice) (contents : List UInt8) : List UInt8 :=
  match slice.source with
  | .apart bytes => bytes.take slice.length.toNat
  | .block _ start => (contents.drop start).take slice.length.toNat

/-- The list takes more bytes, or there was no memory for them. -/
def Grows (alloc : Alloc) (contents more : List UInt8) (answer : Answer)
    (after : List UInt8) : Prop :=
  (answer = .done true ∧ after = contents ++ more) ∨
    (answer = .done false ∧ alloc.isNone = true ∧ after = contents)

def ListStep (contents : List UInt8) : Op → Answer → List UInt8 → Prop
  | .push value alloc, answer, after => Grows alloc contents [value] answer after
  | .append values alloc, answer, after =>
      Grows alloc contents (values.meaning contents) answer after
  | .textAppend value alloc, answer, after => Grows alloc contents value answer after
  | .textAppendInt value printed alloc, answer, after =>
      if printed = true then Grows alloc contents (decimal value) answer after
      else answer = .done false ∧ after = contents
  | .set index value, answer, after =>
      if 0 ≤ index ∧ index < contents.length then
        answer = .done true ∧ after = contents.set index.toNat value
      else answer = .done false ∧ after = contents
  | .get index, answer, after =>
      answer = .byte (if 0 ≤ index then contents[index.toNat]? else none) ∧ after = contents
  | .clear, answer, after => answer = .done true ∧ after = []
  | .length, answer, after => answer = .int contents.length ∧ after = contents
  | .view, answer, after => answer = .bytes contents ∧ after = contents
  | .textBuild _, answer, after => answer = .bytes (contents ++ [0]) ∧ after = contents

inductive ListRun : List UInt8 → List Op → List Answer → List UInt8 → Prop where
  | done (contents : List UInt8) : ListRun contents [] [] contents
  | step {contents next last : List UInt8} {op : Op} {ops : List Op} {answer : Answer}
      {answers : List Answer} (hstep : ListStep contents op answer next)
      (hrest : ListRun next ops answers last) : ListRun contents (op :: ops) (answer :: answers) last

/-- The block has `capacity` bytes, and the first of them are the list. -/
structure Buffer.Holds (buffer : Buffer) (contents : List UInt8) : Prop where
  length : buffer.length = contents.length
  le : buffer.length ≤ buffer.capacity
  capacity_lt : buffer.capacity < 2 ^ 63
  data : ∃ id block, buffer.data = some (id, block) ∧ id < buffer.nextBlock ∧
    (block.bytes : Int) = buffer.capacity ∧
    ∀ i value, contents[i]? = some value → block.slot i = value

/-- A slice can be read where it points. -/
def Slice.valid (buffer : Buffer) (slice : Slice) : Bool :=
  decide (slice.length ≤ 0) || (buffer.read slice.length.toNat slice.source).isSome

def Op.valid (buffer : Buffer) : Op → Bool
  | .append values _ => values.valid buffer
  | _ => true

/-- A slice of the buffer itself, of bytes that are in use, does not make it grow. -/
def Slice.stays (buffer : Buffer) (slice : Slice) : Bool :=
  match slice.source with
  | .apart _ => true
  | .block _ start =>
      decide (start + slice.length ≤ buffer.length) &&
        decide (buffer.length + slice.length ≤ buffer.capacity)

/-- The new length is a word, no slice is read from a block that has moved, and there is memory
for a built string. -/
def Buffer.sound (buffer : Buffer) : Op → Bool
  | .push _ _ => decide (buffer.length + 1 < 2 ^ 63)
  | .append values _ => decide (values.length ≤ 0) ||
      (decide (buffer.length + values.length < 2 ^ 63) && values.stays buffer)
  | .textAppend value _ => decide (buffer.length + value.length < 2 ^ 63)
  | .textAppendInt value _ _ => decide (buffer.length + (decimal value).length < 2 ^ 63)
  | .textBuild alloc => alloc || decide (buffer.length = 0)
  | _ => true

theorem unsigned_of_range {value : Int} (hlow : 0 ≤ value) (hhigh : value < 2 ^ 63) :
    (unsigned value : Int) = value := by
  obtain ⟨value, rfl⟩ := Int.eq_ofNat_of_zero_le hlow
  rw [unsigned_natCast (by omega)]

namespace Buffer.Holds

variable {buffer : Buffer} {contents : List UInt8}

/-- Growing keeps the bytes; without memory nothing changes. -/
theorem ensure (hholds : buffer.Holds contents) {needed : Int} (hneeded : needed < 2 ^ 63)
    (alloc : Alloc) :
    (∃ grown, bufferEnsure buffer needed alloc = (true, grown) ∧ grown.Holds contents ∧
        needed ≤ grown.capacity ∧ (needed ≤ buffer.capacity → grown = buffer)) ∨
      (bufferEnsure buffer needed alloc = (false, buffer) ∧ alloc.isNone = true) := by
  unfold bufferEnsure
  by_cases henough : needed ≤ buffer.capacity
  · rw [if_pos henough]
    exact Or.inl ⟨buffer, rfl, hholds, henough, fun _ => rfl⟩
  rw [if_neg henough]
  cases alloc with
  | none => exact Or.inr ⟨rfl, rfl⟩
  | some fresh =>
      refine Or.inl ⟨_, rfl, ?_, ?_, fun hle => absurd hle henough⟩
      · obtain ⟨hlow, hhigh⟩ : needed ≤ growTo 16 buffer.capacity needed ∧
            growTo 16 buffer.capacity needed < 2 ^ 63 :=
          growTo_spec buffer.capacity hneeded (by decide)
        have hlength := hholds.length
        have hle := hholds.le
        obtain ⟨id, block, hdata, hid, hbytes, hslots⟩ := hholds.data
        have hsize := unsigned_of_range (by omega) hhigh
        refine ⟨hholds.length, ?_, hhigh, buffer.nextBlock, _, rfl, Nat.lt_succ_self _, hsize,
          fun i value hvalue => ?_⟩
        · change buffer.length ≤ growTo 16 buffer.capacity needed
          omega
        · have hi := (List.getElem?_eq_some_iff.mp hvalue).1
          rw [hdata]
          change (Library.Block.realloc 1 (some block) _ fresh).slot i = value
          rw [Library.Block.realloc_slot (by omega) (by omega)]
          exact hslots i value hvalue
      · exact (growTo_spec buffer.capacity hneeded (by decide)).1

theorem extend (hholds : buffer.Holds contents) {id : Nat} {block : Library.Block UInt8}
    (hdata : buffer.data = some (id, block)) {bytes : List UInt8} {source : Nat → UInt8}
    (hsource : ∀ i value, bytes[i]? = some value → source i = value)
    (hroom : (contents.length : Int) + bytes.length ≤ buffer.capacity) :
    ∃ after, block.copyIn 1 buffer.length bytes.length source = some after ∧
      Buffer.Holds
        { buffer with
          data := some (id, after)
          length := contents.length + bytes.length }
        (contents ++ bytes) := by
  obtain ⟨id', block', hdata', hid, hbytes, hslots⟩ := hholds.data
  rw [hdata] at hdata'
  obtain ⟨rfl, rfl⟩ := Prod.mk.inj (Option.some.inj hdata')
  have hfits : (contents.length + bytes.length) * 1 ≤ block.bytes := by omega
  rw [hholds.length]
  refine ⟨_, Library.Block.copyIn_of_le hfits, by simp, hroom, hholds.capacity_lt, id, _, rfl, hid, hbytes,
    fun i value hvalue => ?_⟩
  change (if contents.length ≤ i ∧ i < contents.length + bytes.length then _ else _) = value
  obtain ⟨hi, -⟩ := List.getElem?_eq_some_iff.mp hvalue
  rw [List.length_append] at hi
  by_cases hold : i < contents.length
  · rw [if_neg (by omega)]
    rw [List.getElem?_append_left hold] at hvalue
    exact hslots i value hvalue
  · rw [if_pos (by omega)]
    rw [List.getElem?_append_right (by omega)] at hvalue
    exact hsource _ value hvalue

theorem push (hholds : buffer.Holds contents) (value : UInt8) (alloc : Alloc)
    (hsound : buffer.length + 1 < 2 ^ 63) :
    ∃ ok after last, Bytes.push buffer value alloc = some (ok, after) ∧ after.Holds last ∧
      Grows alloc contents [value] (.done ok) last := by
  have hlength := hholds.length
  have hwrap : wrap (buffer.length + 1) = buffer.length + 1 := wrap_of_range (by omega) hsound
  unfold Bytes.push
  dsimp only
  rw [hwrap]
  rcases hholds.ensure hsound alloc with ⟨grown, hensure, hgrown, hroom, -⟩ | ⟨hensure, hnone⟩
  · obtain ⟨id, block, hdata, hid, hbytes, hslots⟩ := hgrown.data
    have hsame : grown.length = contents.length := hgrown.length
    have hspace : (contents.length + 1) * 1 ≤ block.bytes := by omega
    have hstore : block.store 1 contents.length value = some { block with
        slot := Function.update block.slot contents.length value } :=
      Library.Block.store_of_lt hspace (Nat.lt_succ_self _)
    refine ⟨true, { grown with
        data := some (id, { block with slot := Function.update block.slot contents.length value })
        length := buffer.length + 1 }, contents ++ [value], ?_, ?_, Or.inl ⟨rfl, rfl⟩⟩
    · rw [hensure]
      dsimp only
      rw [hdata]
      dsimp only
      rw [hlength, hstore]
      rfl
    · refine ⟨by simp [hlength], hroom, hgrown.capacity_lt, id, _, rfl, hid, hbytes,
        fun i byte hbyte => ?_⟩
      change Function.update block.slot contents.length value i = byte
      by_cases hlast : i = contents.length
      · subst hlast
        rw [Function.update_self]
        simpa using hbyte
      · have hi := (List.getElem?_eq_some_iff.mp hbyte).1
        rw [List.length_append, List.length_singleton] at hi
        rw [Function.update_of_ne hlast]
        rw [List.getElem?_append_left (by omega)] at hbyte
        exact hslots i byte hbyte
  · rw [hensure]
    exact ⟨false, buffer, contents, rfl, hholds, Or.inr ⟨rfl, hnone, rfl⟩⟩

/-- The bytes that `append` copies are those that the slice stands for. -/
theorem read (hholds : buffer.Holds contents) {values : Slice} (hpos : 0 < values.length)
    (hvalid : values.valid buffer = true) (hstays : values.stays buffer = true) :
    ∃ source, buffer.read values.length.toNat values.source = some source ∧
      values.source.Apart buffer.length.toNat values.length.toNat ∧
      (values.meaning contents).length = values.length.toNat ∧
      ∀ i byte, (values.meaning contents)[i]? = some byte → source i = byte := by
  obtain ⟨source, length⟩ := values
  rw [Slice.valid, Bool.or_eq_true, decide_eq_true_eq] at hvalid
  have hread := hvalid.resolve_left (not_le.mpr hpos)
  have hlength := hholds.length
  cases source with
  | apart bytes =>
      unfold Buffer.read at hread ⊢
      dsimp only at hread ⊢
      by_cases hle : length.toNat ≤ bytes.length
      · rw [if_pos hle]
        refine ⟨_, rfl, trivial, by simpa [Slice.meaning] using hle, fun i byte hbyte => ?_⟩
        rw [Slice.meaning] at hbyte
        dsimp only at hbyte
        have hi := (List.getElem?_eq_some_iff.mp hbyte).1
        rw [List.length_take] at hi
        rw [List.getElem?_take_of_lt (by omega)] at hbyte
        rw [List.getD_eq_getElem?_getD, hbyte, Option.getD_some]
      · rw [if_neg hle] at hread
        cases hread
  | block id start =>
      obtain ⟨current, block, hdata, -, hbytes, hslots⟩ := hholds.data
      rw [Slice.stays] at hstays
      dsimp only at hstays hpos
      rw [Bool.and_eq_true, decide_eq_true_eq, decide_eq_true_eq] at hstays
      unfold Buffer.read at hread ⊢
      rw [hdata] at hread ⊢
      dsimp only at hread ⊢
      by_cases hinside : id = current ∧ start + length.toNat ≤ block.bytes
      · rw [if_pos hinside]
        refine ⟨_, rfl, Or.inl (by omega), ?_, fun i byte hbyte => ?_⟩
        · rw [Slice.meaning, List.length_take, List.length_drop]
          dsimp only
          omega
        · rw [Slice.meaning] at hbyte
          dsimp only at hbyte
          have hi := (List.getElem?_eq_some_iff.mp hbyte).1
          rw [List.length_take] at hi
          rw [List.getElem?_take_of_lt (by omega), List.getElem?_drop] at hbyte
          exact hslots _ byte hbyte
      · rw [if_neg hinside] at hread
        cases hread

theorem append (hholds : buffer.Holds contents) (values : Slice) (alloc : Alloc)
    (hvalid : values.valid buffer = true)
    (hsound : values.length ≤ 0 ∨
      (buffer.length + values.length < 2 ^ 63 ∧ values.stays buffer = true)) :
    ∃ ok after last, Bytes.append buffer values alloc = some (ok, after) ∧ after.Holds last ∧
      Grows alloc contents (values.meaning contents) (.done ok) last := by
  unfold Bytes.append
  by_cases hpos : 0 < values.length
  case neg =>
    have hnothing : values.meaning contents = [] := by
      have hzero : values.length.toNat = 0 := by omega
      unfold Slice.meaning
      split <;> rw [hzero, List.take_zero]
    rw [if_neg hpos, hnothing]
    exact ⟨true, buffer, contents, rfl, hholds, Or.inl ⟨rfl, (List.append_nil _).symm⟩⟩
  rw [if_pos hpos]
  obtain ⟨hneeded, hstays⟩ := hsound.resolve_left (not_le.mpr hpos)
  have hlength := hholds.length
  have hwrap : wrap (buffer.length + values.length) = buffer.length + values.length :=
    wrap_of_range (by omega) hneeded
  obtain ⟨source, hread, hapart, hcount, hsource⟩ := hholds.read hpos hvalid hstays
  dsimp only
  rw [hwrap]
  rcases hholds.ensure hneeded alloc with ⟨grown, hensure, hgrown, hroom, hsame⟩ |
    ⟨hensure, hnone⟩
  · obtain ⟨id, block, hdata, -⟩ := hgrown.data
    -- a slice of the buffer is still where it was
    have hgrownRead : grown.read values.length.toNat values.source = some source := by
      rw [← hread]
      cases hsourceKind : values.source with
      | apart bytes => rfl
      | block id start =>
          rw [Slice.stays, hsourceKind, Bool.and_eq_true, decide_eq_true_eq,
            decide_eq_true_eq] at hstays
          rw [hsame hstays.2]
    obtain ⟨after, hcopy, hafter⟩ := hgrown.extend hdata hsource (by omega)
    have hlengths : (contents.length : Int) + (values.meaning contents).length =
        buffer.length + values.length := by omega
    rw [hgrown.length, ← hlength, hcount] at hcopy
    rw [hlengths] at hafter
    refine ⟨true, _, _, ?_, hafter, Or.inl ⟨rfl, rfl⟩⟩
    rw [hensure]
    dsimp only
    rw [hdata]
    dsimp only
    rw [hgrownRead]
    change (if values.source.Apart buffer.length.toNat values.length.toNat then _ else none) = _
    rw [if_pos hapart, hcopy]
    rfl
  · rw [hensure]
    exact ⟨false, buffer, contents, rfl, hholds, Or.inr ⟨rfl, hnone, rfl⟩⟩

theorem append_apart (hholds : buffer.Holds contents) (bytes : List UInt8) (alloc : Alloc)
    (hsound : buffer.length + bytes.length < 2 ^ 63) :
    ∃ ok after last, Bytes.append buffer ⟨.apart bytes, bytes.length⟩ alloc = some (ok, after) ∧
      after.Holds last ∧ Grows alloc contents bytes (.done ok) last := by
  have hvalid : Slice.valid buffer ⟨.apart bytes, bytes.length⟩ = true := by
    simp [Slice.valid, Buffer.read]
  have happend := hholds.append ⟨.apart bytes, bytes.length⟩ alloc hvalid (Or.inr ⟨hsound, rfl⟩)
  have hmeaning : Slice.meaning ⟨.apart bytes, bytes.length⟩ contents = bytes := by
    simp [Slice.meaning]
  rwa [hmeaning] at happend

theorem get (hholds : buffer.Holds contents) (index : Int) :
    Bytes.get buffer index = some (if 0 ≤ index then contents[index.toNat]? else none) := by
  unfold Bytes.get
  have hlength := hholds.length
  have hle := hholds.le
  by_cases hinside : 0 ≤ index ∧ index < buffer.length
  · obtain ⟨id, block, hdata, -, hbytes, hslots⟩ := hholds.data
    obtain ⟨hlow, hhigh⟩ := hinside
    obtain ⟨index, rfl⟩ := Int.eq_ofNat_of_zero_le hlow
    have hi : index < contents.length := by omega
    rw [if_pos ⟨hlow, hhigh⟩, if_pos hlow, hdata, Int.toNat_natCast,
      List.getElem?_eq_getElem hi]
    dsimp only
    have hroom : contents.length * 1 ≤ block.bytes := by omega
    rw [Library.Block.load_of_lt hroom hi,
      hslots index _ (List.getElem?_eq_getElem hi)]
    rfl
  · rw [if_neg hinside]
    by_cases hlow : 0 ≤ index
    · rw [if_pos hlow, List.getElem?_eq_none (by omega)]
    · rw [if_neg hlow]

theorem set (hholds : buffer.Holds contents) (index : Int) (value : UInt8) :
    if 0 ≤ index ∧ index < contents.length then
      ∃ after, Bytes.set buffer index value = some (true, after) ∧
        after.Holds (contents.set index.toNat value)
    else Bytes.set buffer index value = some (false, buffer) := by
  unfold Bytes.set
  have hlength := hholds.length
  have hle := hholds.le
  by_cases hinside : 0 ≤ index ∧ index < contents.length
  · rw [if_pos hinside, if_pos (by omega)]
    obtain ⟨hlow, hhigh⟩ := hinside
    obtain ⟨index, rfl⟩ := Int.eq_ofNat_of_zero_le hlow
    obtain ⟨id, block, hdata, hid, hbytes, hslots⟩ := hholds.data
    rw [hdata]
    dsimp only
    have hroom : contents.length * 1 ≤ block.bytes := by omega
    rw [Library.Block.store_of_lt hroom (by omega)]
    refine ⟨_, rfl, by simpa using hlength, hle, hholds.capacity_lt, id, _, rfl, hid, hbytes,
      fun i byte hbyte => ?_⟩
    change Function.update block.slot index value i = byte
    rw [Int.toNat_natCast, List.getElem?_set] at hbyte
    by_cases hsame : i = index
    · subst hsame
      rw [if_pos rfl, if_pos (by omega)] at hbyte
      rw [Function.update_self]
      exact Option.some.inj hbyte
    · rw [if_neg (Ne.symm hsame)] at hbyte
      rw [Function.update_of_ne hsame]
      exact hslots i byte hbyte
  · rw [if_neg hinside, if_neg (by omega)]

theorem clear (hholds : buffer.Holds contents) : (Bytes.clear buffer).Holds [] := by
  obtain ⟨id, block, hdata, hid, hbytes, -⟩ := hholds.data
  have hlength := hholds.length
  have hle := hholds.le
  refine ⟨rfl, ?_, hholds.capacity_lt, id, block, hdata, hid, hbytes, by simp⟩
  change (0 : Int) ≤ buffer.capacity
  omega

theorem view (hholds : buffer.Holds contents) :
    (Bytes.slice buffer).bytes buffer = some contents := by
  obtain ⟨id, block, hdata, -, hbytes, hslots⟩ := hholds.data
  have hlength := hholds.length
  have hle := hholds.le
  unfold Bytes.slice
  rw [hdata]
  unfold Slice.bytes Buffer.read
  dsimp only
  rw [hdata]
  dsimp only
  rw [if_pos ⟨rfl, by omega⟩, Option.map_some, hlength, Int.toNat_natCast]
  congr 1
  apply List.ext_getElem?
  intro i
  by_cases hi : i < contents.length
  · rw [List.getElem?_map, List.getElem?_range hi, Option.map_some, Nat.zero_add,
      List.getElem?_eq_getElem hi, hslots i _ (List.getElem?_eq_getElem hi)]
  · rw [List.getElem?_eq_none (by simpa using hi), List.getElem?_eq_none (by omega)]

theorem textBuild (hholds : buffer.Holds contents) (alloc : Bool)
    (hsound : alloc = true ∨ buffer.length = 0) :
    Bytes.textBuild buffer alloc = some (contents ++ [0]) := by
  unfold Bytes.textBuild dupRange
  rw [hholds.view]
  cases alloc with
  | true => rfl
  | false =>
      have hlength := hholds.length
      have hempty : contents = [] := by
        rw [← List.length_eq_zero_iff]
        rcases hsound with hsound | hsound
        · cases hsound
        · omega
      rw [hempty]
      rfl

end Buffer.Holds

theorem step_refines {buffer : Buffer} {contents : List UInt8} (hholds : buffer.Holds contents)
    {op : Op} (hvalid : op.valid buffer = true) (hsound : buffer.sound op = true) :
    ∃ answer after last, buffer.step op = some (answer, after) ∧ after.Holds last ∧
      ListStep contents op answer last := by
  cases op with
  | push value alloc =>
      obtain ⟨ok, after, last, hpush, hafter, hgrows⟩ :=
        hholds.push value alloc (of_decide_eq_true hsound)
      exact ⟨.done ok, after, last, by rw [Buffer.step, hpush]; rfl, hafter, hgrows⟩
  | append values alloc =>
      rw [Buffer.sound, Bool.or_eq_true, Bool.and_eq_true, decide_eq_true_eq,
        decide_eq_true_eq] at hsound
      obtain ⟨ok, after, last, happend, hafter, hgrows⟩ :=
        hholds.append values alloc hvalid hsound
      exact ⟨.done ok, after, last, by rw [Buffer.step, happend]; rfl, hafter, hgrows⟩
  | textAppend value alloc =>
      obtain ⟨ok, after, last, happend, hafter, hgrows⟩ :=
        hholds.append_apart value alloc (of_decide_eq_true hsound)
      exact ⟨.done ok, after, last, by rw [Buffer.step, textAppend, happend]; rfl, hafter, hgrows⟩
  | textAppendInt value printed alloc =>
      obtain ⟨ok, after, last, happend, hafter, hgrows⟩ :=
        hholds.append_apart (decimal value) alloc (of_decide_eq_true hsound)
      cases printed with
      | true =>
          exact ⟨.done ok, after, last,
            by rw [Buffer.step, textAppendInt, if_pos rfl, happend]; rfl, hafter, hgrows⟩
      | false => exact ⟨.done false, buffer, contents, rfl, hholds, rfl, rfl⟩
  | set index value =>
      have hset := hholds.set index value
      rw [Buffer.step]
      by_cases hinside : 0 ≤ index ∧ index < contents.length
      · rw [if_pos hinside] at hset
        obtain ⟨after, hset, hafter⟩ := hset
        refine ⟨.done true, after, _, by rw [hset]; rfl, hafter, ?_⟩
        rw [ListStep]
        rw [if_pos hinside]
        exact ⟨rfl, rfl⟩
      · rw [if_neg hinside] at hset
        refine ⟨.done false, buffer, contents, by rw [hset]; rfl, hholds, ?_⟩
        rw [ListStep]
        rw [if_neg hinside]
        exact ⟨rfl, rfl⟩
  | get index => exact ⟨_, buffer, contents, by rw [Buffer.step, hholds.get]; rfl, hholds, rfl, rfl⟩
  | clear => exact ⟨.done true, _, [], rfl, hholds.clear, rfl, rfl⟩
  | length =>
      exact ⟨.int buffer.length, buffer, contents, rfl, hholds, by rw [hholds.length], rfl⟩
  | view => exact ⟨_, buffer, contents, by rw [Buffer.step, hholds.view]; rfl, hholds, rfl, rfl⟩
  | textBuild alloc =>
      have hbuild := hholds.textBuild alloc (by
        rw [Buffer.sound, Bool.or_eq_true, decide_eq_true_eq] at hsound
        exact hsound)
      exact ⟨_, buffer, contents, by rw [Buffer.step, hbuild]; rfl, hholds, rfl, rfl⟩

/-- Every step of the run meets the condition, in the buffer that it meets. -/
def Buffer.soundRun (buffer : Buffer) : List Op → Bool
  | [] => true
  | op :: ops => op.valid buffer && buffer.sound op &&
      (buffer.step op).all fun after => after.2.soundRun ops

theorem run_refines {ops : List Op} {buffer : Buffer} {contents : List UInt8}
    (hholds : buffer.Holds contents) (hsound : buffer.soundRun ops = true) :
    ∃ answers after last, buffer.run ops = some (answers, after) ∧ after.Holds last ∧
      ListRun contents ops answers last := by
  induction ops generalizing buffer contents with
  | nil => exact ⟨[], buffer, contents, rfl, hholds, .done contents⟩
  | cons op ops ih =>
      rw [Buffer.soundRun, Bool.and_eq_true, Bool.and_eq_true] at hsound
      obtain ⟨⟨hvalid, hop⟩, hrest⟩ := hsound
      obtain ⟨answer, next, middle, hstep, hnext, hlist⟩ := step_refines hholds hvalid hop
      rw [hstep] at hrest
      obtain ⟨answers, after, last, hrun, hafter, hlistRun⟩ := ih hnext hrest
      refine ⟨answer :: answers, after, last, ?_, hafter, .step hlist hlistRun⟩
      rw [Buffer.run, hstep]
      change (next.run ops).bind _ = _
      rw [hrun]
      rfl

theorem withCapacity_holds {capacity : Int} {record : Bool} {alloc : Alloc} {buffer : Buffer}
    (hcapacity : capacity < 2 ^ 63) (hnew : withCapacity capacity record alloc = some buffer) :
    buffer.Holds [] := by
  have hnorm : 16 ≤ normalizeCapacity capacity ∧ normalizeCapacity capacity < 2 ^ 63 := by
    unfold normalizeCapacity
    split <;> omega
  obtain ⟨hlow, hhigh⟩ : normalizeCapacity capacity ≤ growTo 16 0 (normalizeCapacity capacity) ∧
      growTo 16 0 (normalizeCapacity capacity) < 2 ^ 63 := growTo_spec 0 hnorm.2 (by decide)
  have hensure : ∀ fresh, bufferEnsure ⟨none, 0, 0, 0⟩ (normalizeCapacity capacity) (some fresh) =
      (true, ⟨some (0, Library.Block.realloc 1 none
        (unsigned (growTo 16 0 (normalizeCapacity capacity))) fresh), 0,
        growTo 16 0 (normalizeCapacity capacity), 1⟩) := by
    intro fresh
    unfold bufferEnsure
    rw [if_neg (by dsimp only; omega)]
    rfl
  have hfails : bufferEnsure ⟨none, 0, 0, 0⟩ (normalizeCapacity capacity) none =
      (false, ⟨none, 0, 0, 0⟩) := by
    unfold bufferEnsure
    rw [if_neg (by dsimp only; omega)]
  unfold withCapacity at hnew
  cases record with
  | false => cases hnew
  | true =>
      rw [if_pos rfl] at hnew
      cases alloc with
      | none =>
          rw [hfails] at hnew
          cases hnew
      | some fresh =>
          rw [hensure] at hnew
          obtain rfl := Option.some.inj hnew
          refine ⟨rfl, ?_, hhigh, 0, _, rfl, Nat.zero_lt_one, ?_, by simp⟩
          · dsimp only
            omega
          · exact unsigned_of_range (by omega) hhigh

/-- The buffer and the list run side by side. -/
theorem bytes_refine_list {capacity : Int} {record : Bool} {alloc : Alloc} {buffer : Buffer}
    {ops : List Op} (hcapacity : capacity < 2 ^ 63)
    (hnew : withCapacity capacity record alloc = some buffer)
    (hsound : buffer.soundRun ops = true) :
    ∃ answers after last, buffer.run ops = some (answers, after) ∧
      ListRun [] ops answers last ∧ after.Holds last := by
  obtain ⟨answers, after, last, hrun, hafter, hlist⟩ :=
    run_refines (withCapacity_holds hcapacity hnew) hsound
  exact ⟨answers, after, last, hrun, hlist, hafter⟩

def zeros : Alloc := some fun _ => 0

/-- A string and a number, then the buffer once more, which has room for itself. -/
def echoed : List Op :=
  [.append ⟨.apart [104, 105], 2⟩ none, .textAppend [32] none, .textAppendInt (-7) true none,
    .append ⟨.block 0 0, 5⟩ none, .append ⟨.apart [], -1⟩ none, .set 1 105, .set 10 0, .get 9,
    .append ⟨.apart (List.replicate 20 46), 20⟩ none,
    .append ⟨.apart (List.replicate 20 46), 20⟩ zeros, .push 10 none, .length, .view,
    .textBuild true, .clear, .push 10 none, .view]

theorem bytes_refine_list_echoed : ∃ buffer, withCapacity 0 true zeros = some buffer ∧
    ∃ answers after last, buffer.run echoed = some (answers, after) ∧
      ListRun [] echoed answers last ∧ after.Holds last :=
  ⟨_, rfl, @bytes_refine_list 0 true zeros _ echoed (by decide) rfl (by decide)⟩

/-- A full buffer appended to itself: the view is valid, but it is read from the old block. -/
theorem append_own_view_fails :
    ∃ buffer full, withCapacity 16 true zeros = some buffer ∧
      append buffer ⟨.apart (List.replicate 16 97), 16⟩ none = some (true, full) ∧
      (slice full).valid full = true ∧ append full (slice full) zeros = none :=
  ⟨_, _, rfl, rfl, by decide, by decide⟩

end Bytes

end Cnegative
