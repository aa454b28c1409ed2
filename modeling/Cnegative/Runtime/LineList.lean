import Cnegative.Runtime.Lines

namespace Cnegative

namespace Lines

open Library

/-! What a line buffer is for: a list of lines, each with the copy that holds it. -/

structure Line where
  id : Nat
  text : List UInt8
  deriving DecidableEq, Repr

/-- A value reads as a string of its own, or as a line of the list. -/
def Value.Reads (contents : List Line) : Value → List UInt8 → Prop
  | .apart bytes, text => text = bytes
  | .line id, text => ⟨id, text⟩ ∈ contents

/-- The line is in its place, or there was no memory for it or for the array. -/
def Inserts (contents : List Line) (index : Nat) (value : Value) (memory : Bool)
    (answer : Answer) (after : List Line) : Prop :=
  (answer = .done true ∧ ∃ id text, value.Reads contents text ∧
      after = contents.insertIdx index ⟨id, text⟩) ∨
    (answer = .done false ∧ memory = false ∧ after = contents)

def ListStep (contents : List Line) : Op → Answer → List Line → Prop
  | .push value alloc grow, answer, after =>
      Inserts contents contents.length value (alloc && grow.isSome) answer after
  | .insert index value alloc grow, answer, after =>
      if 0 ≤ index ∧ index ≤ contents.length then
        Inserts contents index.toNat value (alloc && grow.isSome) answer after
      else answer = .done false ∧ after = contents
  | .set index value alloc, answer, after =>
      if 0 ≤ index ∧ index < contents.length ∧ alloc = true then
        answer = .done true ∧ ∃ id text, value.Reads contents text ∧
          after = contents.set index.toNat ⟨id, text⟩
      else answer = .done false ∧ after = contents
  | .remove index, answer, after =>
      if 0 ≤ index ∧ index < contents.length then
        answer = .done true ∧ after = contents.eraseIdx index.toNat
      else answer = .done false ∧ after = contents
  | .get index, answer, after =>
      answer = .line (if 0 ≤ index then (contents[index.toNat]?).map Line.text else none) ∧
        after = contents
  | .clear, answer, after => answer = .done true ∧ after = []
  | .length, answer, after => answer = .int contents.length ∧ after = contents

inductive ListRun : List Line → List Op → List Answer → List Line → Prop where
  | done (contents : List Line) : ListRun contents [] [] contents
  | step {contents next last : List Line} {op : Op} {ops : List Op} {answer : Answer}
      {answers : List Answer} (hstep : ListStep contents op answer next)
      (hrest : ListRun next ops answers last) : ListRun contents (op :: ops) (answer :: answers) last

/-! The copies that are not freed are those of the lines. -/

structure Owns (strings : Strings) (contents : List Line) : Prop where
  text_iff : ∀ id text, strings.text id = some text ↔ ⟨id, text⟩ ∈ contents
  nodup : (contents.map Line.id).Nodup
  lt_next : ∀ line ∈ contents, line.id < strings.next

namespace Owns

variable {strings : Strings} {contents : List Line}

theorem perm {other : List Line} (howns : Owns strings contents) (hperm : contents.Perm other) :
    Owns strings other where
  text_iff id text := (howns.text_iff id text).trans hperm.mem_iff
  nodup := (hperm.map Line.id).nodup howns.nodup
  lt_next line hline := howns.lt_next line (hperm.mem_iff.mpr hline)

theorem dup (howns : Owns strings contents) (text : List UInt8) :
    Owns
      { text := Function.update strings.text strings.next (some text), next := strings.next + 1 }
      (⟨strings.next, text⟩ :: contents) where
  text_iff id other := by
    dsimp only
    by_cases hnew : id = strings.next
    · subst hnew
      rw [Function.update_self, List.mem_cons]
      constructor
      · rintro hsame
        obtain rfl := Option.some.inj hsame
        exact Or.inl rfl
      · rintro (hsame | hold)
        · rw [(Line.mk.inj hsame).2]
        · exact absurd (howns.lt_next _ hold) (Nat.lt_irrefl _)
    · rw [Function.update_of_ne hnew, howns.text_iff, List.mem_cons]
      exact ⟨Or.inr, fun hmem => hmem.resolve_left fun hsame => hnew (Line.mk.inj hsame).1⟩
  nodup := by
    rw [List.map_cons, List.nodup_cons]
    refine ⟨fun hmem => ?_, howns.nodup⟩
    obtain ⟨line, hline, hsame⟩ := List.mem_map.mp hmem
    have hlt := howns.lt_next line hline
    dsimp only at hsame
    omega
  lt_next line hline := by
    rcases List.mem_cons.mp hline with rfl | hold
    · exact Nat.lt_succ_self _
    · exact Nat.lt_succ_of_lt (howns.lt_next line hold)

theorem free {line : Line} (howns : Owns strings (line :: contents)) :
    ∃ after, strings.free line.id = some after ∧ Owns after contents := by
  have htext : strings.text line.id = some line.text :=
    (howns.text_iff _ _).mpr (List.mem_cons_self ..)
  have hnodup := howns.nodup
  rw [List.map_cons, List.nodup_cons] at hnodup
  refine ⟨{ strings with text := Function.update strings.text line.id none },
    by rw [Strings.free, htext]; rfl, ?_⟩
  refine
    { text_iff := fun id text => ?_
      nodup := hnodup.2
      lt_next := fun other hother => howns.lt_next other (List.mem_cons_of_mem _ hother) }
  dsimp only
  by_cases hsame : id = line.id
  · subst hsame
    rw [Function.update_self]
    constructor
    · intro hnone
      cases hnone
    · intro hmem
      exact absurd (List.mem_map_of_mem (f := Line.id) hmem) hnodup.1
  · rw [Function.update_of_ne hsame, howns.text_iff, List.mem_cons]
    constructor
    · rintro (hline | hmem)
      · exact absurd (congrArg Line.id hline) hsame
      · exact hmem
    · exact Or.inr

end Owns

/-! The buffer. -/

def Layout (data : Library.Block Ptr) (contents : List Line) : Prop :=
  ∀ i line, contents[i]? = some line → data.slot i = some line.id

structure State.Holds (state : State) (contents : List Line) : Prop where
  length : state.buffer.length = contents.length
  le : state.buffer.length ≤ state.buffer.capacity
  capacity_lt : state.buffer.capacity < 2 ^ 61
  data : ∃ data, state.buffer.data = some data ∧
    (data.bytes : Int) = 8 * state.buffer.capacity ∧ Layout data contents
  owns : Owns state.strings contents

theorem unsigned_arraySize {count : Nat} (hcount : count < 2 ^ 61) :
    unsigned (arraySize count) = count * 8 := by
  rw [arraySize, unsigned_wrap]
  have hnat : ((count : Int) * 8) = ((count * 8 : Nat) : Int) := by push_cast; ring
  rw [hnat, unsigned_natCast (by omega)]

theorem Value.read_iff {strings : Strings} {contents : List Line} (howns : Owns strings contents)
    {value : Value} {text : List UInt8} :
    value.read strings = some text ↔ value.Reads contents text := by
  cases value with
  | apart bytes =>
      rw [Value.read, Value.Reads, Option.some.injEq]
      exact eq_comm
  | line id => exact howns.text_iff id text

/-- Freed in order, the copies of the first lines are gone. -/
theorem freeItems_spec {data : Library.Block Ptr} {strings : Strings} {contents : List Line}
    (hroom : contents.length * 8 ≤ data.bytes) (hlayout : Layout data contents)
    (howns : Owns strings contents) :
    ∃ after, freeItems (some data) contents.length strings = some after ∧ Owns after [] := by
  unfold freeItems
  rw [Int.toNat_natCast]
  obtain ⟨last, hfold, hlast⟩ : ∃ last,
      (List.range contents.length).foldlM (freeItem data) strings = some last ∧
        Owns last (contents.drop contents.length) := by
    refine foldlM_range_rule (motive := fun k strings => Owns strings (contents.drop k))
      (by simpa using howns) fun k middle hk hmiddle => ?_
    rw [List.drop_eq_getElem_cons hk] at hmiddle
    obtain ⟨after, hfree, hafter⟩ := hmiddle.free
    refine ⟨after, ?_, hafter⟩
    unfold freeItem
    rw [Library.Block.load_of_lt hroom hk, hlayout k _ (List.getElem?_eq_getElem hk)]
    exact hfree
  rw [List.drop_length] at hlast
  exact ⟨last, hfold, hlast⟩

namespace State.Holds

variable {state : State} {contents : List Line}

/-- Growing keeps the lines; without memory nothing changes. -/
theorem ensure (hholds : state.Holds contents) (grow : Alloc)
    (hsound : grow.isNone = true ∨ state.buffer.length < state.buffer.capacity ∨
      state.buffer.capacity < 2 ^ 60) :
    (∃ grown, bufferEnsure state.buffer (state.buffer.length + 1) grow = (true, grown) ∧
        State.Holds ⟨grown, state.strings⟩ contents ∧ state.buffer.length < grown.capacity) ∨
      (bufferEnsure state.buffer (state.buffer.length + 1) grow = (false, state.buffer) ∧
        grow.isSome = false) := by
  have hlength := hholds.length
  have hle := hholds.le
  have hlt := hholds.capacity_lt
  unfold bufferEnsure
  by_cases henough : state.buffer.length + 1 ≤ state.buffer.capacity
  · rw [if_pos henough]
    exact Or.inl ⟨state.buffer, rfl, hholds, by omega⟩
  rw [if_neg henough]
  cases grow with
  | none => exact Or.inr ⟨rfl, rfl⟩
  | some fresh =>
      have hfull : state.buffer.capacity < 2 ^ 60 := by
        rcases hsound with hsound | hsound | hsound
        · cases hsound
        · omega
        · exact hsound
      have hwrap : wrap (state.buffer.capacity * 2) = state.buffer.capacity * 2 :=
        wrap_of_range (by omega) (by omega)
      obtain ⟨capacity, hcapacity, hneeded, hsmall⟩ : ∃ capacity : Nat,
          growTo 8 state.buffer.capacity (state.buffer.length + 1) = capacity ∧
          state.buffer.length + 1 ≤ capacity ∧ capacity < 2 ^ 61 := by
        refine ⟨(growTo 8 state.buffer.capacity (state.buffer.length + 1)).toNat, ?_⟩
        unfold growTo
        rw [hwrap]
        dsimp only
        split <;> split <;> omega
      obtain ⟨data, hdata, hbytes, hlayout⟩ := hholds.data
      refine Or.inl ⟨_, rfl, ?_, ?_⟩
      · refine ⟨hlength, ?_, ?_, ⟨_, rfl, ?_, fun i line hline => ?_⟩, hholds.owns⟩
        · dsimp only
          omega
        · dsimp only
          omega
        · dsimp only [Library.Block.realloc]
          rw [hcapacity, unsigned_arraySize hsmall]
          push_cast
          ring
        · have hi := (List.getElem?_eq_some_iff.mp hline).1
          rw [hdata, hcapacity, unsigned_arraySize hsmall, Library.Block.realloc_slot (by omega) (by omega)]
          exact hlayout i line hline
      · dsimp only
        omega

theorem get (hholds : state.Holds contents) (index : Int) :
    state.get index =
      some (if 0 ≤ index then (contents[index.toNat]?).map Line.text else none) := by
  have hlength := hholds.length
  have hle := hholds.le
  obtain ⟨data, hdata, hbytes, hlayout⟩ := hholds.data
  unfold State.get Lines.get
  by_cases hinside : 0 ≤ index ∧ index < state.buffer.length
  · obtain ⟨hlow, hhigh⟩ := hinside
    obtain ⟨index, rfl⟩ := Int.eq_ofNat_of_zero_le hlow
    have hi : index < contents.length := by omega
    have htext := (hholds.owns.text_iff (contents[index]).id (contents[index]).text).mpr
      (List.getElem_mem hi)
    have hload : data.load 8 index = some (some (contents[index]).id) := by
      rw [Library.Block.load_of_lt (by omega) hi, hlayout index _ (List.getElem?_eq_getElem hi)]
    rw [if_pos ⟨hlow, hhigh⟩, if_pos hlow, hdata, Int.toNat_natCast,
      List.getElem?_eq_getElem hi]
    dsimp only
    rw [hload]
    dsimp only [Option.map_some]
    rw [htext]
    rfl
  · rw [if_neg hinside]
    by_cases hlow : 0 ≤ index
    · rw [if_pos hlow, List.getElem?_eq_none (by omega)]
      rfl
    · rw [if_neg hlow]

theorem clear (hholds : state.Holds contents) :
    ∃ after, Lines.clear state.buffer state.strings = some after ∧
      State.Holds ⟨after.1, after.2⟩ [] := by
  have hlength := hholds.length
  have hle := hholds.le
  obtain ⟨data, hdata, hbytes, hlayout⟩ := hholds.data
  obtain ⟨strings, hfree, howns⟩ := freeItems_spec (by omega) hlayout hholds.owns
  refine ⟨({ state.buffer with length := 0 }, strings), ?_, rfl, ?_, hholds.capacity_lt,
    ⟨data, hdata, hbytes, by intro i line hline; simp at hline⟩, howns⟩
  · unfold Lines.clear
    rw [hdata, hlength, hfree]
    rw [← hdata]
    rfl
  · dsimp only
    omega

theorem free (hholds : state.Holds contents) :
    ∃ strings, Lines.free state.buffer state.strings = some strings ∧ Owns strings [] := by
  have hlength := hholds.length
  have hle := hholds.le
  obtain ⟨data, hdata, hbytes, hlayout⟩ := hholds.data
  obtain ⟨strings, hfree, howns⟩ := freeItems_spec (by omega) hlayout hholds.owns
  refine ⟨strings, ?_, howns⟩
  unfold Lines.free
  rw [hdata, hlength]
  exact hfree

theorem set (hholds : state.Holds contents) {index : Int} {value : Value} {text : List UInt8}
    (hinside : 0 ≤ index ∧ index < contents.length) (hreads : value.Reads contents text) :
    ∃ after : State, Lines.set state.buffer state.strings index value true =
        some (true, after.buffer, after.strings) ∧
      after.Holds (contents.set index.toNat ⟨state.strings.next, text⟩) := by
  have hlength := hholds.length
  have hle := hholds.le
  obtain ⟨data, hdata, hbytes, hlayout⟩ := hholds.data
  obtain ⟨hlow, hhigh⟩ := hinside
  obtain ⟨index, rfl⟩ := Int.eq_ofNat_of_zero_le hlow
  have hi : index < contents.length := by omega
  have hload : data.load 8 index = some (some (contents[index]).id) := by
    rw [Library.Block.load_of_lt (by omega) hi, hlayout index _ (List.getElem?_eq_getElem hi)]
  have hroom : contents.length * 8 ≤ data.bytes := by omega
  have hstore : data.store 8 index (some state.strings.next) = some { data with
      slot := Function.update data.slot index (some state.strings.next) } :=
    Library.Block.store_of_lt hroom hi
  -- the new copy is made before the old one is freed, so that a line may replace itself
  have hperm : (⟨state.strings.next, text⟩ :: contents : List Line).Perm
      (contents[index] :: ⟨state.strings.next, text⟩ :: contents.eraseIdx index) :=
    (List.Perm.cons _ (List.getElem_cons_eraseIdx_perm hi).symm).trans (List.Perm.swap ..)
  obtain ⟨strings, hfree, hafter⟩ := ((hholds.owns.dup text).perm hperm).free
  refine ⟨⟨{ state.buffer with data := some { data with
      slot := Function.update data.slot index (some state.strings.next) } }, strings⟩, ?_, ?_⟩
  · unfold Lines.set dup
    rw [if_pos (by omega), (Value.read_iff hholds.owns).mpr hreads, hdata]
    simp only [Option.bind_eq_bind, Option.bind_some, if_true, Option.pure_def, hload, freePtr,
      hfree, hstore]
  · rw [Int.toNat_natCast]
    refine ⟨by simpa using hlength, hle, hholds.capacity_lt, ⟨_, rfl, hbytes, ?_⟩,
      hafter.perm (List.set_perm_cons_eraseIdx hi _).symm⟩
    intro i line hline
    change Function.update data.slot index (some state.strings.next) i = some line.id
    rw [List.getElem?_set] at hline
    by_cases hsame : index = i
    · subst hsame
      rw [if_pos rfl, if_pos hi] at hline
      rw [Function.update_self, ← Option.some.inj hline]
    · rw [if_neg hsame] at hline
      rw [Function.update_of_ne (Ne.symm hsame)]
      exact hlayout i line hline

/-- The tail moves, also when there is none. -/
theorem shiftTail_spec (data : Library.Block Ptr) (target source count : Nat) (hcount : count < 2 ^ 61)
    (hsource : (source + count) * 8 ≤ data.bytes) (htarget : (target + count) * 8 ≤ data.bytes) :
    ∃ moved, shiftTail data target source count = some moved ∧ moved.bytes = data.bytes ∧
      ∀ i, moved.slot i =
        if target ≤ i ∧ i < target + count then data.slot (source + (i - target))
        else data.slot i := by
  unfold shiftTail
  by_cases hpos : 0 < (count : Int)
  · rw [if_pos hpos, unsigned_arraySize hcount, moveTail, if_pos (by omega),
      Nat.mul_div_cancel _ (by decide), Library.Block.copyIn_of_le htarget, Int.toNat_natCast]
    exact ⟨_, rfl, rfl, fun i => rfl⟩
  · rw [if_neg hpos]
    refine ⟨data, rfl, rfl, fun i => ?_⟩
    rw [if_neg (by omega)]

theorem insert_done (hholds : state.Holds contents) {index : Int} {value : Value}
    {text : List UInt8} {grow : Alloc} {grown : Buffer}
    (hinside : 0 ≤ index ∧ index ≤ contents.length) (hreads : value.Reads contents text)
    (hensure : bufferEnsure state.buffer (state.buffer.length + 1) grow = (true, grown))
    (hgrown : State.Holds ⟨grown, state.strings⟩ contents)
    (hroom : state.buffer.length < grown.capacity) :
    ∃ after : State, Lines.insert state.buffer state.strings index value true grow =
        some (true, after.buffer, after.strings) ∧
      after.Holds (contents.insertIdx index.toNat ⟨state.strings.next, text⟩) := by
  have hlength := hholds.length
  have hcapacity := hgrown.capacity_lt
  obtain ⟨data, hdata, hbytes, hlayout⟩ := hgrown.data
  dsimp only at hdata hbytes hcapacity
  obtain ⟨hlow, hhigh⟩ := hinside
  obtain ⟨index, rfl⟩ := Int.eq_ofNat_of_zero_le hlow
  have hi : index ≤ contents.length := by omega
  have hneeded : wrap (state.buffer.length + 1) = state.buffer.length + 1 :=
    wrap_of_range (by omega) (by omega)
  have htail : wrap (state.buffer.length - index) = (contents.length - index : Nat) := by
    rw [wrap_of_range (by omega) (by omega)]
    omega
  have hnext : wrap ((index : Int) + 1) = (index + 1 : Nat) :=
    wrap_of_range (by omega) (by omega)
  obtain ⟨moved, hmoved, hmovedBytes, hmovedSlot⟩ := shiftTail_spec data (index + 1) index
    (contents.length - index) (by omega) (by omega) (by omega)
  have hslots : (contents.length + 1) * 8 ≤ moved.bytes := by omega
  have hstore : moved.store 8 index (some state.strings.next) = some { moved with
      slot := Function.update moved.slot index (some state.strings.next) } :=
    Library.Block.store_of_lt hslots (by omega)
  refine ⟨⟨{ grown with
      data := some { moved with
        slot := Function.update moved.slot index (some state.strings.next) }
      length := state.buffer.length + 1 },
    { text := Function.update state.strings.text state.strings.next (some text)
      next := state.strings.next + 1 }⟩, ?_, ?_⟩
  · unfold Lines.insert dup
    rw [if_pos (by omega), (Value.read_iff hholds.owns).mpr hreads]
    simp only [Option.bind_eq_bind, Option.bind_some, if_true, Option.pure_def, hneeded, hensure,
      hdata, htail, hnext, hmoved, hstore]
  · rw [Int.toNat_natCast]
    refine ⟨?_, ?_, hcapacity, ⟨_, rfl, ?_, ?_⟩,
      (hholds.owns.dup text).perm (List.perm_insertIdx _ _ hi).symm⟩
    · rw [List.length_insertIdx_of_le_length hi]
      dsimp only
      omega
    · dsimp only
      omega
    · dsimp only
      omega
    · intro i line hline
      change Function.update moved.slot index (some state.strings.next) i = some line.id
      rw [List.getElem?_insertIdx] at hline
      by_cases hbefore : i < index
      · rw [if_pos hbefore] at hline
        rw [Function.update_of_ne (by omega), hmovedSlot, if_neg (by omega)]
        exact hlayout i line hline
      · rw [if_neg hbefore] at hline
        by_cases hsame : i = index
        · subst hsame
          rw [if_pos rfl, if_pos hi] at hline
          rw [Function.update_self, ← Option.some.inj hline]
        · rw [if_neg hsame] at hline
          have hlt := (List.getElem?_eq_some_iff.mp hline).1
          rw [Function.update_of_ne hsame, hmovedSlot, if_pos (by omega),
            show index + (i - (index + 1)) = i - 1 by omega]
          exact hlayout (i - 1) line hline

theorem remove (hholds : state.Holds contents) {index : Int}
    (hinside : 0 ≤ index ∧ index < contents.length) :
    ∃ after : State, Lines.remove state.buffer state.strings index =
        some (true, after.buffer, after.strings) ∧
      after.Holds (contents.eraseIdx index.toNat) := by
  have hlength := hholds.length
  have hle := hholds.le
  have hcapacity := hholds.capacity_lt
  obtain ⟨data, hdata, hbytes, hlayout⟩ := hholds.data
  obtain ⟨hlow, hhigh⟩ := hinside
  obtain ⟨index, rfl⟩ := Int.eq_ofNat_of_zero_le hlow
  have hi : index < contents.length := by omega
  have hroom : contents.length * 8 ≤ data.bytes := by omega
  have hload : data.load 8 index = some (some (contents[index]).id) := by
    rw [Library.Block.load_of_lt hroom hi, hlayout index _ (List.getElem?_eq_getElem hi)]
  obtain ⟨strings, hfree, hafter⟩ :=
    (hholds.owns.perm (List.getElem_cons_eraseIdx_perm hi).symm).free
  have hlast : wrap (state.buffer.length - 1) = (contents.length - 1 : Nat) := by
    rw [wrap_of_range (by omega) (by omega)]
    omega
  have htail : wrap (wrap (state.buffer.length - index) - 1) =
      (contents.length - index - 1 : Nat) := by
    have hinner : wrap (state.buffer.length - index) = state.buffer.length - index :=
      wrap_of_range (by omega) (by omega)
    rw [hinner, wrap_of_range (by omega) (by omega)]
    omega
  have hnext : wrap ((index : Int) + 1) = (index + 1 : Nat) :=
    wrap_of_range (by omega) (by omega)
  obtain ⟨moved, hmoved, hmovedBytes, hmovedSlot⟩ := shiftTail_spec data index (index + 1)
    (contents.length - index - 1) (by omega) (by omega) (by omega)
  have hslots : contents.length * 8 ≤ moved.bytes := by omega
  have hstore : moved.store 8 (contents.length - 1 : Nat) none = some { moved with
      slot := Function.update moved.slot (contents.length - 1) none } :=
    Library.Block.store_of_lt hslots (by omega)
  refine ⟨⟨{ state.buffer with
      data := some { moved with slot := Function.update moved.slot (contents.length - 1) none }
      length := (contents.length - 1 : Nat) }, strings⟩, ?_, ?_⟩
  · unfold Lines.remove
    rw [if_pos (by omega), hdata]
    simp only [Option.bind_eq_bind, Option.bind_some, Option.pure_def, hload, freePtr, hfree,
      hlast, htail, hnext, hmoved, hstore]
  · rw [Int.toNat_natCast]
    have herased : (contents.eraseIdx index).length = contents.length - 1 :=
      List.length_eraseIdx_of_lt hi
    refine ⟨by rw [herased], ?_, hcapacity, ⟨_, rfl, ?_, ?_⟩, hafter⟩
    · dsimp only
      omega
    · dsimp only
      omega
    · intro i line hline
      change Function.update moved.slot (contents.length - 1) none i = some line.id
      have hlt := (List.getElem?_eq_some_iff.mp hline).1
      rw [herased] at hlt
      rw [Function.update_of_ne (by omega), hmovedSlot]
      rw [List.getElem?_eraseIdx] at hline
      by_cases hbefore : i < index
      · rw [if_pos hbefore] at hline
        rw [if_neg (by omega)]
        exact hlayout i line hline
      · rw [if_neg hbefore] at hline
        rw [if_pos (by omega), show index + 1 + (i - index) = i + 1 by omega]
        exact hlayout (i + 1) line hline

theorem insert (hholds : state.Holds contents) (index : Int) {value : Value}
    {text : List UInt8} (alloc : Bool) {grow : Alloc}
    (hinside : 0 ≤ index ∧ index ≤ contents.length) (hreads : value.Reads contents text)
    (hsound : grow.isNone = true ∨ state.buffer.length < state.buffer.capacity ∨
      state.buffer.capacity < 2 ^ 60) :
    ∃ (ok : Bool) (after : State) (last : List Line),
      Lines.insert state.buffer state.strings index value alloc grow =
        some (ok, after.buffer, after.strings) ∧
      after.Holds last ∧
      Inserts contents index.toNat value (alloc && grow.isSome) (.done ok) last := by
  cases alloc with
  | false =>
      refine ⟨false, state, contents, ?_, hholds, Or.inr ⟨rfl, rfl, rfl⟩⟩
      have hlength := hholds.length
      unfold Lines.insert dup
      rw [if_pos (by omega), (Value.read_iff hholds.owns).mpr hreads]
      rfl
  | true =>
      rcases hholds.ensure grow hsound with ⟨grown, hensure, hgrown, hroom⟩ | ⟨hensure, hnone⟩
      · obtain ⟨after, hinsert, hafter⟩ :=
          hholds.insert_done hinside hreads hensure hgrown hroom
        exact ⟨true, after, _, hinsert, hafter, Or.inl ⟨rfl, _, text, hreads, rfl⟩⟩
      -- the copy is freed again
      · obtain ⟨strings, hfree, howns⟩ := (hholds.owns.dup text).free
        have hlength := hholds.length
        have hle := hholds.le
        have hlt := hholds.capacity_lt
        have hneeded : wrap (state.buffer.length + 1) = state.buffer.length + 1 :=
          wrap_of_range (by omega) (by omega)
        refine ⟨false, ⟨state.buffer, strings⟩, contents, ?_,
          ⟨hholds.length, hholds.le, hholds.capacity_lt, hholds.data, howns⟩,
          Or.inr ⟨rfl, by rw [hnone]; rfl, rfl⟩⟩
        unfold Lines.insert dup
        rw [if_pos (by omega), (Value.read_iff hholds.owns).mpr hreads]
        simp only [Option.bind_eq_bind, Option.bind_some, if_true, Option.pure_def, hneeded,
          hensure]
        dsimp only at hfree
        rw [hfree]
        rfl

end State.Holds

/-- The string that the program hands over can be read. -/
def Op.valid (state : State) : Op → Bool
  | .push value _ _ => (value.read state.strings).isSome
  | .insert _ value _ _ => (value.read state.strings).isSome
  | .set _ value _ => (value.read state.strings).isSome
  | _ => true

/-- A full array that grows has fewer than `2 ^ 60` slots. -/
def State.sound (state : State) : Op → Bool
  | .push _ _ grow | .insert _ _ _ grow =>
      grow.isNone || decide (state.buffer.length < state.buffer.capacity) ||
        decide (state.buffer.capacity < 2 ^ 60)
  | _ => true

theorem step_refines {state : State} {contents : List Line} (hholds : state.Holds contents)
    {op : Op} (hvalid : op.valid state = true) (hsound : state.sound op = true) :
    ∃ answer after last, state.step op = some (answer, after) ∧ State.Holds after last ∧
      ListStep contents op answer last := by
  have hlength := hholds.length
  cases op with
  | push value alloc grow =>
      obtain ⟨text, htext⟩ := Option.isSome_iff_exists.mp hvalid
      have hreads := (Value.read_iff hholds.owns).mp htext
      rw [State.sound, Bool.or_eq_true, Bool.or_eq_true, decide_eq_true_eq, decide_eq_true_eq,
        or_assoc] at hsound
      obtain ⟨ok, after, last, hinsert, hafter, hlist⟩ := hholds.insert
        contents.length alloc ⟨by omega, le_refl _⟩ hreads hsound
      rw [Int.toNat_natCast] at hlist
      refine ⟨.done ok, after, last, ?_, hafter, hlist⟩
      rw [State.step, Lines.push, hlength, hinsert]
      rfl
  | insert index value alloc grow =>
      obtain ⟨text, htext⟩ := Option.isSome_iff_exists.mp hvalid
      have hreads := (Value.read_iff hholds.owns).mp htext
      rw [State.sound, Bool.or_eq_true, Bool.or_eq_true, decide_eq_true_eq, decide_eq_true_eq,
        or_assoc] at hsound
      by_cases hinside : 0 ≤ index ∧ index ≤ contents.length
      · obtain ⟨ok, after, last, hinsert, hafter, hlist⟩ :=
          hholds.insert index alloc hinside hreads hsound
        refine ⟨.done ok, after, last, by rw [State.step, hinsert]; rfl, hafter, ?_⟩
        rw [ListStep, if_pos hinside]
        exact hlist
      · refine ⟨.done false, state, contents, ?_, hholds, ?_⟩
        · rw [State.step, Lines.insert, if_neg (by omega)]
          rfl
        · rw [ListStep, if_neg hinside]
          exact ⟨rfl, rfl⟩
  | set index value alloc =>
      obtain ⟨text, htext⟩ := Option.isSome_iff_exists.mp hvalid
      have hreads := (Value.read_iff hholds.owns).mp htext
      by_cases hinside : 0 ≤ index ∧ index < contents.length
      · cases alloc with
        | true =>
            obtain ⟨after, hset, hafter⟩ := hholds.set hinside hreads
            refine ⟨.done true, after, _, by rw [State.step, hset]; rfl, hafter, ?_⟩
            rw [ListStep, if_pos ⟨hinside.1, hinside.2, rfl⟩]
            exact ⟨rfl, _, text, hreads, rfl⟩
        | false =>
            refine ⟨.done false, state, contents, ?_, hholds, ?_⟩
            · rw [State.step, Lines.set, if_pos (by omega), dup, htext]
              rfl
            · rw [ListStep, if_neg (by simp)]
              exact ⟨rfl, rfl⟩
      · refine ⟨.done false, state, contents, ?_, hholds, ?_⟩
        · rw [State.step, Lines.set, if_neg (by omega)]
          rfl
        · rw [ListStep, if_neg (fun hall => hinside ⟨hall.1, hall.2.1⟩)]
          exact ⟨rfl, rfl⟩
  | remove index =>
      by_cases hinside : 0 ≤ index ∧ index < contents.length
      · obtain ⟨after, hremove, hafter⟩ := hholds.remove hinside
        refine ⟨.done true, after, _, by rw [State.step, hremove]; rfl, hafter, ?_⟩
        rw [ListStep, if_pos hinside]
        exact ⟨rfl, rfl⟩
      · refine ⟨.done false, state, contents, ?_, hholds, ?_⟩
        · rw [State.step, Lines.remove, if_neg (by omega)]
          rfl
        · rw [ListStep, if_neg hinside]
          exact ⟨rfl, rfl⟩
  | get index =>
      exact ⟨_, state, contents, by rw [State.step, hholds.get]; rfl, hholds, rfl, rfl⟩
  | clear =>
      obtain ⟨after, hclear, hafter⟩ := hholds.clear
      exact ⟨.done true, _, [], by rw [State.step, hclear]; rfl, hafter, rfl, rfl⟩
  | length => exact ⟨_, state, contents, rfl, hholds, by rw [hlength], rfl⟩

/-- Every step of the run meets the condition, in the state that it meets. -/
def State.soundRun (state : State) : List Op → Bool
  | [] => true
  | op :: ops => op.valid state && state.sound op &&
      (state.step op).all fun after => after.2.soundRun ops

theorem run_refines {ops : List Op} {state : State} {contents : List Line}
    (hholds : state.Holds contents) (hsound : state.soundRun ops = true) :
    ∃ answers after last, state.run ops = some (answers, after) ∧ State.Holds after last ∧
      ListRun contents ops answers last := by
  induction ops generalizing state contents with
  | nil => exact ⟨[], state, contents, rfl, hholds, .done contents⟩
  | cons op ops ih =>
      rw [State.soundRun, Bool.and_eq_true, Bool.and_eq_true] at hsound
      obtain ⟨⟨hvalid, hop⟩, hrest⟩ := hsound
      obtain ⟨answer, next, middle, hstep, hnext, hlist⟩ := step_refines hholds hvalid hop
      rw [hstep] at hrest
      obtain ⟨answers, after, last, hrun, hafter, hlistRun⟩ := ih hnext hrest
      refine ⟨answer :: answers, after, last, ?_, hafter, .step hlist hlistRun⟩
      rw [State.run, hstep]
      change (next.run ops).bind _ = _
      rw [hrun]
      rfl

def noStrings : Strings := ⟨fun _ => none, 0⟩

def Buffer.HasRoom (buffer : Buffer) : Prop :=
  ∃ data, buffer.data = some data ∧ 8 * buffer.capacity ≤ data.bytes

theorem State.Holds.hasRoom {state : State} {contents : List Line}
    (hholds : state.Holds contents) : state.buffer.HasRoom := by
  obtain ⟨data, hdata, hbytes, -⟩ := hholds.data
  exact ⟨data, hdata, hbytes.ge⟩

theorem withCapacity_eq {capacity : Int} {record : Bool} {alloc : Alloc} {buffer : Buffer}
    (hnew : withCapacity capacity record alloc = some buffer) :
    ∃ fresh, buffer = ⟨some (Library.Block.realloc 8 none
      (unsigned (arraySize (normalizeCapacity capacity))) fresh), 0,
      normalizeCapacity capacity⟩ := by
  have hnorm : 8 ≤ normalizeCapacity capacity := by
    unfold normalizeCapacity
    split <;> omega
  have hgrow : growTo 8 0 (normalizeCapacity capacity) = normalizeCapacity capacity := by
    unfold growTo
    rw [if_neg (lt_irrefl _)]
    dsimp only
    split <;> omega
  unfold withCapacity bufferEnsure at hnew
  rw [if_neg (show ¬ normalizeCapacity capacity ≤ 0 by omega)] at hnew
  cases record with
  | false => cases hnew
  | true =>
      cases alloc with
      | none => cases hnew
      | some fresh =>
          obtain rfl := Option.some.inj hnew
          exact ⟨fresh, by rw [hgrow]⟩

theorem withCapacity_holds {capacity : Int} {record : Bool} {alloc : Alloc} {buffer : Buffer}
    (hcapacity : capacity < 2 ^ 61) (hnew : withCapacity capacity record alloc = some buffer) :
    State.Holds ⟨buffer, noStrings⟩ [] := by
  obtain ⟨fresh, rfl⟩ := withCapacity_eq hnew
  have hnorm : 8 ≤ normalizeCapacity capacity ∧ normalizeCapacity capacity < 2 ^ 61 := by
    unfold normalizeCapacity
    split <;> omega
  obtain ⟨norm, hsame⟩ := Int.eq_ofNat_of_zero_le (show 0 ≤ normalizeCapacity capacity by omega)
  refine ⟨rfl, ?_, hnorm.2, ⟨_, rfl, ?_, by intro i line hline; simp at hline⟩, ?_⟩
  · dsimp only
    omega
  · dsimp only [Library.Block.realloc]
    rw [hsame, unsigned_arraySize (by omega)]
    push_cast
    ring
  · exact ⟨by simp [noStrings], List.nodup_nil, by simp⟩

/-- A new buffer has room just when its size in bytes is a word.  Then the buffer and the list
run side by side, the copies in memory are those of the list, and `free` leaves none. -/
theorem lines_refine_list_iff {capacity : Int} {record : Bool} {alloc : Alloc} {buffer : Buffer}
    (hcapacity : capacity < 2 ^ 63) (hnew : withCapacity capacity record alloc = some buffer) :
    (buffer.HasRoom ↔ capacity < 2 ^ 61) ∧
      (capacity < 2 ^ 61 → ∀ ops : List Op, State.soundRun ⟨buffer, noStrings⟩ ops = true →
        ∃ answers after last, State.run ⟨buffer, noStrings⟩ ops = some (answers, after) ∧
          ListRun [] ops answers last ∧ State.Holds after last ∧ after.buffer.HasRoom ∧
          ∃ strings, free after.buffer after.strings = some strings ∧
            ∀ id, strings.text id = none) := by
  refine ⟨⟨?_, fun hsmall => (withCapacity_holds hsmall hnew).hasRoom⟩, fun hsmall ops hops => ?_⟩
  · rintro ⟨data, hdata, hroom⟩
    obtain ⟨fresh, rfl⟩ := withCapacity_eq hnew
    obtain rfl := Option.some.inj hdata
    dsimp only [Library.Block.realloc] at hroom
    have hbytes := unsigned_lt (arraySize (normalizeCapacity capacity))
    have hnorm : capacity ≤ normalizeCapacity capacity := by
      unfold normalizeCapacity
      split <;> omega
    omega
  · obtain ⟨answers, after, last, hrun, hafter, hlist⟩ :=
      run_refines (withCapacity_holds hsmall hnew) hops
    obtain ⟨strings, hfree, howns⟩ := hafter.free
    refine ⟨answers, after, last, hrun, hlist, hafter, hafter.hasRoom, strings, hfree,
      fun id => ?_⟩
    by_contra htext
    obtain ⟨text, htext⟩ := Option.ne_none_iff_exists'.mp htext
    exact absurd ((howns.text_iff id text).mp htext) (List.not_mem_nil)

def nulls : Alloc := some fun _ => none

/-- Lines move both ways, one replaces itself, and an array grows. -/
def edited : List Op :=
  [.push (.apart [97]) true none, .push (.apart [98]) true none, .insert 1 (.line 0) true none,
    .set 0 (.line 0) true, .set 7 (.apart []) true, .insert 0 (.apart [99]) false none, .remove 1,
    .push (.apart [100]) true none, .push (.apart [101]) true none, .push (.apart [102]) true none,
    .push (.apart [103]) true none, .push (.apart [104]) true none, .push (.apart [105]) true none,
    .push (.apart [106]) true none, .push (.apart [106]) true nulls, .get 8, .get (-1), .length,
    .remove 8]

theorem lines_refine_list_edited :
    ∃ buffer, withCapacity 0 true nulls = some buffer ∧ ((buffer.HasRoom ↔ (0 : Int) < 2 ^ 61) ∧
      ((0 : Int) < 2 ^ 61 → ∀ ops : List Op, State.soundRun ⟨buffer, noStrings⟩ ops = true →
        ∃ answers after last, State.run ⟨buffer, noStrings⟩ ops = some (answers, after) ∧
          ListRun [] ops answers last ∧ State.Holds after last ∧ after.buffer.HasRoom ∧
          ∃ strings, free after.buffer after.strings = some strings ∧
            ∀ id, strings.text id = none)) ∧
      State.soundRun ⟨buffer, noStrings⟩ edited = true :=
  ⟨_, rfl, @lines_refine_list_iff 0 true nulls _ (by decide) rfl, by decide⟩

/-- `2 ^ 61` slots of eight bytes are no bytes modulo `2 ^ 64`: the first line lies outside of
the block. -/
theorem large_capacity_overflows :
    ∃ buffer, withCapacity (2 ^ 61) true nulls = some buffer ∧ ¬ buffer.HasRoom ∧
      State.run ⟨buffer, noStrings⟩ [.push (.apart [97]) true none] = none := by
  refine ⟨_, rfl, ?_, by decide⟩
  rintro ⟨data, hdata, hroom⟩
  obtain rfl := Option.some.inj hdata
  revert hroom
  decide

end Lines

end Cnegative
