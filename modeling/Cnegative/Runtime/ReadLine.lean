import Cnegative.Library.Pieces
import Cnegative.Runtime.CString
import Cnegative.Runtime.Ipc

namespace Cnegative

namespace Ipc

open Library.Pieces

/-! Reading the output of a child line by line, with the bytes that are still to come. -/

/-- `read` on a stream that ends and never fails. -/
def readByte (_ : Fd) : Text → ByteAnswer × Text
  | [] => (.finished, [])
  | ch :: rest => (.byte ch, rest)

/-- `cn_ipc_stdout_read_line`; `none` is err. -/
def stdoutReadLine (child : Option State) (maxBytes : Int) (malloc : CString.Malloc)
    (stream : Text) : Option Text × Text :=
  match child with
  | none => (none, stream)
  | some state =>
      readLineFd readByte state.stdoutRead maxBytes (malloc (maxBytes.toNat + 1)) stream

/-- What a program gets that reads until err; `none` is more than that many calls. -/
def readLines (child : Option State) (maxBytes : Int) (malloc : CString.Malloc) :
    Nat → Text → Option (List Text)
  | 0, _ => none
  | calls + 1, stream =>
      match stdoutReadLine child maxBytes malloc stream with
      | (none, _) => some []
      | (some line, rest) => (readLines child maxBytes malloc calls rest).map (line :: ·)

/-! The lines of a stream. -/

def linesFrom : Text → Text → List (Text × Bool)
  | current, [] => if current = [] then [] else [(current, false)]
  | current, ch :: rest =>
      if ch = newline then (current, true) :: linesFrom [] rest
      else linesFrom (current ++ [ch]) rest

def streamLines (stream : Text) : List (Text × Bool) := linesFrom [] stream

def delivered (size : Nat) (line : Text × Bool) : List Text := pieces size (stripReturn line.1)

/-- No full piece ends the line, no piece but the last one ends in a carriage return, and the last
one is more than that. -/
structure Unbroken (size : Nat) (line : Text × Bool) : Prop where
  partial_end : line.2 = true → line.1 = [] ∨ ¬ size ∣ line.1.length
  no_return : ∀ count, 0 < count → count * size < line.1.length →
    line.1[count * size - 1]? ≠ some carriageReturn
  more_than_return : 1 < line.1.length → size ∣ line.1.length - 1 →
    line.1.getLast? ≠ some carriageReturn

/-! What the calls make of a line. -/

/-- A full buffer is a line of its own, also in front of the newline. -/
def readPieces (size : Nat) (terminated : Bool) : Nat → Text → List Text
  | 0, _ => []
  | turns + 1, line =>
      if line.length < size then [stripReturn line]
      else
        stripReturn (line.take size) ::
          if line.length = size ∧ terminated = false then []
          else readPieces size terminated turns (line.drop size)

def readOf (size : Nat) (line : Text × Bool) : List Text :=
  readPieces size line.2 (line.1.length + 1) line.1

section

variable {fd : Fd} {line tail : Text} {room : Nat}

theorem readLineLoop_full (hfree : ∀ ch ∈ line, ch ≠ newline) (hroom : room ≤ line.length)
    (buffer : Text) (found : Bool) :
    readLineLoop readByte fd room buffer found (line ++ tail) =
      (some (buffer ++ line.take room, found || decide (0 < room)), line.drop room ++ tail) := by
  induction room generalizing line buffer found with
  | zero => simp [readLineLoop]
  | succ room ih =>
      cases line with
      | nil => simp at hroom
      | cons ch line =>
          rw [List.cons_append, readLineLoop, readByte]
          dsimp only
          rw [if_neg (hfree ch List.mem_cons_self),
            ih (fun other hother => hfree other (List.mem_cons_of_mem _ hother))
              (Nat.le_of_succ_le_succ hroom)]
          simp

theorem readLineLoop_newline (hfree : ∀ ch ∈ line, ch ≠ newline) (hroom : line.length < room)
    (buffer : Text) (found : Bool) :
    readLineLoop readByte fd room buffer found (line ++ newline :: tail) =
      (some (buffer ++ line, true), tail) := by
  induction room generalizing line buffer found with
  | zero => omega
  | succ room ih =>
      cases line with
      | nil => simp [readLineLoop, readByte]
      | cons ch line =>
          rw [List.cons_append, readLineLoop, readByte]
          dsimp only
          rw [if_neg (hfree ch List.mem_cons_self),
            ih (fun other hother => hfree other (List.mem_cons_of_mem _ hother))
              (Nat.lt_of_succ_lt_succ hroom)]
          simp

theorem readLineLoop_end (hfree : ∀ ch ∈ line, ch ≠ newline) (hroom : line.length < room)
    (buffer : Text) (found : Bool) :
    readLineLoop readByte fd room buffer found line = (some (buffer ++ line, false), []) := by
  induction room generalizing line buffer found with
  | zero => omega
  | succ room ih =>
      cases line with
      | nil => simp [readLineLoop, readByte]
      | cons ch line =>
          rw [readLineLoop, readByte]
          dsimp only
          rw [if_neg (hfree ch List.mem_cons_self),
            ih (fun other hother => hfree other (List.mem_cons_of_mem _ hother))
              (Nat.lt_of_succ_lt_succ hroom)]
          simp

theorem linesFrom_newline (hfree : ∀ ch ∈ line, ch ≠ newline) (current : Text) :
    linesFrom current (line ++ newline :: tail) = (current ++ line, true) :: linesFrom [] tail := by
  induction line generalizing current with
  | nil => simp [linesFrom]
  | cons ch line ih =>
      rw [List.cons_append, linesFrom, if_neg (hfree ch List.mem_cons_self),
        ih fun other hother => hfree other (List.mem_cons_of_mem _ hother)]
      simp

theorem linesFrom_end (hfree : ∀ ch ∈ line, ch ≠ newline) (current : Text) :
    linesFrom current line =
      if current ++ line = [] then [] else [(current ++ line, false)] := by
  induction line generalizing current with
  | nil => simp [linesFrom]
  | cons ch line ih =>
      rw [linesFrom, if_neg (hfree ch List.mem_cons_self),
        ih fun other hother => hfree other (List.mem_cons_of_mem _ hother)]
      simp

theorem stream_cases (stream : Text) :
    (∀ ch ∈ stream, ch ≠ newline) ∨
      ∃ line rest, stream = line ++ newline :: rest ∧ ∀ ch ∈ line, ch ≠ newline := by
  induction stream with
  | nil => exact Or.inl (by simp)
  | cons ch stream ih =>
      by_cases hch : ch = newline
      · exact Or.inr ⟨[], stream, by rw [hch]; rfl, by simp⟩
      · obtain hfree | ⟨line, rest, rfl, hfree⟩ := ih
        · exact Or.inl (List.forall_mem_cons.mpr ⟨hch, hfree⟩)
        · exact Or.inr ⟨ch :: line, rest, rfl, List.forall_mem_cons.mpr ⟨hch, hfree⟩⟩

end

/-! All lines. -/

theorem readPieces_eq {size : Nat} (hsize : 0 < size) (terminated : Bool) {turns turns' : Nat}
    {line : Text} (hturns : line.length < turns) (hturns' : line.length < turns') :
    readPieces size terminated turns line = readPieces size terminated turns' line := by
  induction turns generalizing turns' line with
  | zero => omega
  | succ turns ih =>
      cases turns' with
      | zero => omega
      | succ turns' =>
          rw [readPieces, readPieces]
          split
          · rfl
          · split
            · rfl
            · have hdrop : (line.drop size).length < line.length := by
                rw [List.length_drop]
                omega
              exact congrArg _ (ih (by omega) (by omega))

theorem readOf_short {size : Nat} {line : Text} (terminated : Bool) (hshort : line.length < size) :
    readOf size (line, terminated) = [stripReturn line] := if_pos hshort

theorem readOf_long {size : Nat} (hsize : 0 < size) {line : Text} {terminated : Bool}
    (hlong : size ≤ line.length) (hmore : ¬ (line.length = size ∧ terminated = false)) :
    readOf size (line, terminated) =
      stripReturn (line.take size) :: readOf size (line.drop size, terminated) := by
  rw [readOf, readPieces, if_neg (by simpa using hlong), if_neg hmore, readOf]
  refine congrArg _ (readPieces_eq hsize _ ?_ (Nat.lt_succ_self _))
  simp only [List.length_drop]
  omega

section

variable {state : State} {fd : Fd} {maxBytes : Int} {malloc : CString.Malloc} {stream : Text}

theorem stdoutReadLine_eq (hfd : state.stdoutRead = some fd) (hmax : 0 < maxBytes)
    (hmalloc : malloc (maxBytes.toNat + 1) = true) {buffer rest : Text} {found : Bool}
    (hloop : readLineLoop readByte fd maxBytes.toNat [] false stream =
      (some (buffer, found), rest)) :
    stdoutReadLine (some state) maxBytes malloc stream =
      if buffer = [] ∧ found = false then (none, rest) else (some (stripReturn buffer), rest) := by
  simp only [stdoutReadLine, readLineFd, hfd]
  rw [if_neg (by simp [hmalloc, hmax]), hloop]

section

variable {line tail : Text} (hfree : ∀ ch ∈ line, ch ≠ newline)
  (hfd : state.stdoutRead = some fd) (hmax : 0 < maxBytes)
  (hmalloc : malloc (maxBytes.toNat + 1) = true)

include hfree hfd hmax hmalloc

theorem stdoutReadLine_full (hlong : maxBytes.toNat ≤ line.length) :
    stdoutReadLine (some state) maxBytes malloc (line ++ tail) =
      (some (stripReturn (line.take maxBytes.toNat)), line.drop maxBytes.toNat ++ tail) := by
  rw [stdoutReadLine_eq hfd hmax hmalloc (readLineLoop_full hfree hlong _ _), if_neg]
  · simp
  · simp only [List.nil_append, List.take_eq_nil_iff, not_and_or]
    refine Or.inl (not_or.mpr ⟨by omega, fun hempty => ?_⟩)
    rw [hempty, List.length_nil] at hlong
    omega

theorem stdoutReadLine_newline (hshort : line.length < maxBytes.toNat) :
    stdoutReadLine (some state) maxBytes malloc (line ++ newline :: tail) =
      (some (stripReturn line), tail) := by
  rw [stdoutReadLine_eq hfd hmax hmalloc (readLineLoop_newline hfree hshort _ _),
    if_neg (by simp)]
  simp

theorem stdoutReadLine_end (hshort : line.length < maxBytes.toNat) :
    stdoutReadLine (some state) maxBytes malloc line =
      (if line = [] then none else some (stripReturn line), []) := by
  rw [stdoutReadLine_eq hfd hmax hmalloc (readLineLoop_end hfree hshort _ _)]
  simp only [List.nil_append, and_true]
  split <;> rfl

end

theorem streamLines_newline {line tail : Text} (hfree : ∀ ch ∈ line, ch ≠ newline) :
    streamLines (line ++ newline :: tail) = (line, true) :: streamLines tail :=
  linesFrom_newline hfree []

theorem streamLines_end {line : Text} (hfree : ∀ ch ∈ line, ch ≠ newline) :
    streamLines line = if line = [] then [] else [(line, false)] :=
  linesFrom_end hfree []

/-- The calls deliver what `readOf` makes of each line. -/
theorem readLines_eq (hfd : state.stdoutRead = some fd) (hmax : 0 < maxBytes)
    (hmalloc : malloc (maxBytes.toNat + 1) = true) {calls : Nat} (hcalls : stream.length < calls) :
    readLines (some state) maxBytes malloc calls stream =
      some ((streamLines stream).flatMap (readOf maxBytes.toNat)) := by
  have hsize : 0 < maxBytes.toNat := by omega
  induction calls generalizing stream with
  | zero => omega
  | succ calls ih =>
      rw [readLines]
      obtain hfree | ⟨line, rest, rfl, hfree⟩ := stream_cases stream
      · obtain hshort | hlong := Nat.lt_or_ge stream.length maxBytes.toNat
        · rw [stdoutReadLine_end hfree hfd hmax hmalloc hshort, streamLines_end hfree]
          by_cases hempty : stream = []
          · rw [if_pos hempty, if_pos hempty]
            rfl
          · have hpos := List.length_pos_iff.mpr hempty
            rw [if_neg hempty, if_neg hempty]
            dsimp only
            rw [ih (by rw [List.length_nil]; omega)]
            simp [streamLines, linesFrom, readOf_short false hshort]
        · have hdrop : ∀ ch ∈ stream.drop maxBytes.toNat, ch ≠ newline :=
            fun ch hch => hfree ch (List.mem_of_mem_drop hch)
          have hne : stream ≠ [] := by
            rintro rfl
            rw [List.length_nil] at hlong
            omega
          have hfull : stdoutReadLine (some state) maxBytes malloc (stream ++ []) = _ :=
            stdoutReadLine_full hfree hfd hmax hmalloc hlong
          rw [List.append_nil, List.append_nil] at hfull
          rw [hfull]
          dsimp only
          rw [ih (by rw [List.length_drop]; omega), streamLines_end hfree, if_neg hne,
            streamLines_end hdrop, Option.map_some, List.flatMap_singleton]
          by_cases hall : stream.length = maxBytes.toNat
          · have hbehind : stream.drop maxBytes.toNat = [] := by
              rw [List.drop_eq_nil_iff, hall]
            rw [if_pos hbehind, readOf, readPieces, if_neg (by simpa using hlong),
              if_pos ⟨hall, rfl⟩]
            rfl
          · have hbehind : stream.drop maxBytes.toNat ≠ [] := by
              rw [Ne, List.drop_eq_nil_iff]
              omega
            rw [if_neg hbehind, List.flatMap_singleton, readOf_long hsize hlong fun h => hall h.1]
      · simp only [List.length_append, List.length_cons] at hcalls
        obtain hshort | hlong := Nat.lt_or_ge line.length maxBytes.toNat
        · rw [stdoutReadLine_newline hfree hfd hmax hmalloc hshort]
          dsimp only
          rw [ih (by omega), streamLines_newline hfree, List.flatMap_cons, readOf_short _ hshort]
          rfl
        · have hdrop : ∀ ch ∈ line.drop maxBytes.toNat, ch ≠ newline :=
            fun ch hch => hfree ch (List.mem_of_mem_drop hch)
          rw [stdoutReadLine_full hfree hfd hmax hmalloc hlong]
          dsimp only
          rw [ih (by simp only [List.length_append, List.length_drop, List.length_cons]; omega),
            streamLines_newline hdrop, streamLines_newline hfree, List.flatMap_cons,
            List.flatMap_cons, readOf_long hsize hlong (by simp)]
          rfl

end

/-! When that is what is to be delivered. -/

theorem length_stripReturn (line : Text) :
    (stripReturn line).length = line.length ∨
      line.getLast? = some carriageReturn ∧ (stripReturn line).length = line.length - 1 := by
  unfold stripReturn
  split
  · exact Or.inr ⟨by assumption, List.length_dropLast⟩
  · exact Or.inl rfl

theorem stripReturn_length_le (line : Text) : (stripReturn line).length ≤ line.length := by
  obtain heq | ⟨-, heq⟩ := length_stripReturn line <;> omega

theorem stripReturn_eq_self_iff {line : Text} (hne : line ≠ []) :
    stripReturn line = line ↔ line.getLast? ≠ some carriageReturn := by
  unfold stripReturn
  split
  · rename_i hreturn
    refine iff_of_false (fun heq => ?_) (not_not.mpr hreturn)
    have hlength := congrArg List.length heq
    have hpos := List.length_pos_iff.mpr hne
    rw [List.length_dropLast] at hlength
    omega
  · rename_i hreturn
    exact iff_of_true rfl hreturn

theorem stripReturn_append (front : Text) {back : Text} (hback : back ≠ []) :
    stripReturn (front ++ back) = front ++ stripReturn back := by
  unfold stripReturn
  rw [List.getLast?_append_of_ne_nil _ hback]
  split
  · exact List.dropLast_append_of_ne_nil hback
  · rfl

theorem stripReturn_eq_nil {line : Text} (hne : line ≠ []) (hnil : stripReturn line = []) :
    line = [carriageReturn] := by
  unfold stripReturn at hnil
  split at hnil
  · rename_i hreturn
    rw [← List.dropLast_append_getLast hne, hnil, List.nil_append,
      (List.getLast_eq_iff_getLast?_eq_some hne).mpr hreturn]
  · exact absurd hnil hne

section

variable {size : Nat} {line : Text} {terminated : Bool}

theorem delivered_short (hshort : line.length ≤ size) :
    delivered size (line, terminated) = [stripReturn line] :=
  pieces_of_le ((stripReturn_length_le line).trans hshort)

/-- A carriage return that would be a piece of its own is gone. -/
theorem delivered_return (hlong : size < line.length)
    (hreturn : line.drop size = [carriageReturn]) :
    delivered size (line, terminated) = [line.take size] := by
  have hstrip : stripReturn line = line.take size := by
    have hdrop : line.drop size ≠ [] := by simp [hreturn]
    have happend := stripReturn_append (line.take size) hdrop
    rw [List.take_append_drop, hreturn] at happend
    exact happend.trans (List.append_nil _)
  rw [delivered, hstrip]
  exact pieces_of_le (by rw [List.length_take]; omega)

theorem delivered_long (hsize : 0 < size) (hlong : size < line.length)
    (hreturn : line.drop size ≠ [carriageReturn]) :
    delivered size (line, terminated) =
      line.take size :: delivered size (line.drop size, terminated) := by
  have hdrop : line.drop size ≠ [] := by
    rw [Ne, List.drop_eq_nil_iff]
    omega
  have hstrip : stripReturn line = line.take size ++ stripReturn (line.drop size) := by
    rw [← stripReturn_append _ hdrop, List.take_append_drop]
  have htake : (line.take size).length = size := by
    rw [List.length_take]
    omega
  have hrest : 0 < (stripReturn (line.drop size)).length :=
    List.length_pos_iff.mpr fun hnil => hreturn (stripReturn_eq_nil hdrop hnil)
  rw [delivered, delivered]
  dsimp only
  rw [hstrip, pieces_of_lt hsize (by rw [List.length_append]; omega), List.take_left' htake,
    List.drop_left' htake]

/-- There are at least as many pieces as there should be. -/
theorem length_delivered_le (hsize : 0 < size) :
    (delivered size (line, terminated)).length ≤ (readOf size (line, terminated)).length := by
  induction hlength : line.length using Nat.strong_induction_on generalizing line with
  | _ length ih =>
      obtain hshort | hlong := Nat.lt_or_ge line.length size
      · rw [readOf_short _ hshort, delivered_short (Nat.le_of_lt hshort)]
      by_cases hlast : line.length = size ∧ terminated = false
      · rw [delivered_short (by omega), readOf, readPieces, if_neg (by simpa using hlong),
          if_pos hlast]
        exact Nat.le_refl _
      · rw [readOf_long hsize hlong hlast]
        obtain hfull | hmore := Nat.eq_or_lt_of_le hlong
        · rw [delivered_short (by omega)]
          exact Nat.succ_le_succ (Nat.zero_le _)
        by_cases hreturn : line.drop size = [carriageReturn]
        · rw [delivered_return hmore hreturn]
          exact Nat.succ_le_succ (Nat.zero_le _)
        · rw [delivered_long hsize hmore hreturn]
          exact Nat.succ_le_succ
            (ih (line.length - size) (by omega) List.length_drop)

theorem readOf_pos : 0 < (readOf size (line, terminated)).length := by
  rw [readOf, readPieces]
  split
  · exact Nat.one_pos
  · exact Nat.succ_pos _

theorem getLast?_take {text : Text} {count : Nat} (hpos : 0 < count)
    (hle : count ≤ text.length) : (text.take count).getLast? = text[count - 1]? := by
  rw [List.getLast?_eq_getElem?, List.length_take, Nat.min_eq_left hle,
    List.getElem?_take_of_lt (Nat.sub_lt hpos Nat.one_pos)]

/-- The condition, one piece on. -/
theorem unbroken_drop_iff (hsize : 0 < size) (hlong : size < line.length)
    (hreturn : line.drop size ≠ [carriageReturn]) :
    Unbroken size (line, terminated) ↔
      (line.take size).getLast? ≠ some carriageReturn ∧
        Unbroken size (line.drop size, terminated) := by
  have hlength : (line.drop size).length = line.length - size := List.length_drop
  have hlast : (line.drop size).getLast? = line.getLast? := by
    rw [List.getLast?_drop, if_neg (by omega)]
  have hdvd : size ∣ line.length ↔ size ∣ line.length - size := by
    conv_lhs => rw [← Nat.sub_add_cancel (Nat.le_of_lt hlong)]
    exact Nat.dvd_add_self_right
  have hdvd' : 1 < line.length - size →
      (size ∣ line.length - 1 ↔ size ∣ line.length - size - 1) := by
    intro hmore
    rw [show line.length - 1 = line.length - size - 1 + size by omega]
    exact Nat.dvd_add_self_right
  have hshift : ∀ count, 0 < count →
      (line.drop size)[count * size - 1]? = (line)[(count + 1) * size - 1]? := by
    intro count hcount
    have hpos : 0 < count * size := Nat.mul_pos hcount hsize
    rw [List.getElem?_drop, Nat.succ_mul]
    congr 1
    omega
  rw [getLast?_take hsize (Nat.le_of_lt hlong)]
  constructor
  · intro hunbroken
    refine ⟨?_, fun hterminated => ?_, fun count hcount hlt => ?_, fun hmore hdivides => ?_⟩
    · have hfirst := hunbroken.no_return 1 Nat.one_pos
      rw [Nat.one_mul] at hfirst
      exact hfirst hlong
    · obtain hempty | hends := hunbroken.partial_end hterminated
      · rw [show line = [] from hempty, List.length_nil] at hlong
        omega
      · exact Or.inr fun hdivides => hends (hdvd.mpr (hlength ▸ hdivides))
    · dsimp only at hlt ⊢
      rw [hshift count hcount]
      refine hunbroken.no_return (count + 1) (Nat.succ_pos _) ?_
      rw [Nat.succ_mul]
      dsimp only
      omega
    · dsimp only at hmore hdivides ⊢
      rw [hlength] at hmore hdivides
      rw [hlast]
      exact hunbroken.more_than_return (by dsimp only; omega) ((hdvd' hmore).mpr hdivides)
  · rintro ⟨hfirst, hrest⟩
    refine ⟨fun hterminated => Or.inr fun hdivides => ?_, fun count hcount hlt => ?_,
      fun hmore hdivides => ?_⟩
    · obtain hempty | hends := hrest.partial_end hterminated
      · have hnone := congrArg List.length (show line.drop size = [] from hempty)
        rw [hlength, List.length_nil] at hnone
        omega
      · exact hends (show size ∣ (line.drop size).length by rw [hlength]; exact hdvd.mp hdivides)
    · dsimp only at hlt ⊢
      cases count with
      | zero => omega
      | succ count =>
          cases count with
          | zero => rwa [Nat.zero_add, Nat.one_mul]
          | succ count =>
              rw [← hshift (count + 1) (Nat.succ_pos _)]
              refine hrest.no_return (count + 1) (Nat.succ_pos _) ?_
              rw [Nat.succ_mul] at hlt
              dsimp only
              omega
    · dsimp only at hmore hdivides ⊢
      obtain hone | hmany := Nat.eq_or_lt_of_le (show 1 ≤ line.length - size by omega)
      · intro hends
        obtain ⟨ch, hch⟩ := List.length_eq_one_iff.mp (hlength.trans hone.symm)
        rw [← hlast, hch] at hends
        exact hreturn (by rw [hch]; simpa using hends)
      · have hback := hrest.more_than_return (by dsimp only; omega)
          (by dsimp only; rw [hlength]; exact (hdvd' hmany).mp hdivides)
        rwa [hlast] at hback

theorem readOf_eq_delivered_iff (hsize : 0 < size) :
    readOf size (line, terminated) = delivered size (line, terminated) ↔
      Unbroken size (line, terminated) := by
  induction hlength : line.length using Nat.strong_induction_on generalizing line with
  | _ length ih =>
      obtain hshort | hlong := Nat.lt_or_ge line.length size
      · rw [readOf_short _ hshort, delivered_short (Nat.le_of_lt hshort)]
        refine iff_of_true rfl ⟨fun _ => ?_, fun count hcount hlt => ?_, fun hmore hdivides => ?_⟩
        · by_cases hempty : line = []
          · exact Or.inl hempty
          · exact Or.inr (Nat.not_dvd_of_pos_of_lt (List.length_pos_iff.mpr hempty) hshort)
        · have hle : size ≤ count * size := Nat.le_mul_of_pos_left _ hcount
          dsimp only at hlt
          omega
        · dsimp only at hmore hdivides
          exact absurd hdivides (Nat.not_dvd_of_pos_of_lt (by omega) (by omega))
      by_cases hfull : line.length = size
      · rw [delivered_short (Nat.le_of_eq hfull)]
        cases terminated with
        | false =>
            have hread : readOf size (line, false) = [stripReturn line] := by
              rw [readOf, readPieces, if_neg (by simpa using hlong), if_pos ⟨hfull, rfl⟩,
                List.take_of_length_le (Nat.le_of_eq hfull)]
            rw [hread]
            refine iff_of_true rfl ⟨fun hno => (by cases hno), fun count hcount hlt => ?_,
              fun hmore hdivides => ?_⟩
            · have hle : size ≤ count * size := Nat.le_mul_of_pos_left _ hcount
              dsimp only at hlt
              omega
            · dsimp only at hmore hdivides
              exact absurd hdivides (Nat.not_dvd_of_pos_of_lt (by omega) (by omega))
        | true =>
            rw [readOf_long hsize hlong (by simp)]
            refine iff_of_false (fun heq => ?_) fun hunbroken => ?_
            · have hcount := congrArg List.length heq
              have hpos : 0 < (readOf size (line.drop size, true)).length := readOf_pos
              rw [List.length_cons, List.length_singleton] at hcount
              omega
            · obtain hempty | hends := hunbroken.partial_end rfl
              · rw [show line = [] from hempty, List.length_nil] at hfull
                omega
              · exact hends (Dvd.intro 1 (by dsimp only; omega))
      · have hmore : size < line.length := by omega
        rw [readOf_long hsize hlong fun h => hfull h.1]
        by_cases hreturn : line.drop size = [carriageReturn]
        · rw [delivered_return hmore hreturn]
          refine iff_of_false (fun heq => ?_) fun hunbroken => ?_
          · have hcount := congrArg List.length heq
            have hpos : 0 < (readOf size (line.drop size, terminated)).length := readOf_pos
            rw [List.length_cons, List.length_singleton] at hcount
            omega
          · have hone := congrArg List.length hreturn
            rw [List.length_drop, List.length_singleton] at hone
            refine hunbroken.more_than_return (by dsimp only; omega)
              (Dvd.intro 1 (by dsimp only; omega)) ?_
            dsimp only
            rw [← List.take_append_drop size line, hreturn, List.getLast?_append]
            rfl
        · have htake : line.take size ≠ [] := by
            rw [Ne, List.take_eq_nil_iff, not_or]
            exact ⟨by omega, by rintro rfl; simp at hmore⟩
          rw [delivered_long hsize hmore hreturn, List.cons.injEq,
            unbroken_drop_iff hsize hmore hreturn, stripReturn_eq_self_iff htake]
          exact and_congr_right fun _ =>
            ih (line.length - size) (by omega) List.length_drop

end

/-- The calls deliver the lines of the stream just when every line is unbroken. -/
theorem line_reads_partition_iff (state : State) (fd : Fd) (maxBytes : Int)
    (malloc : CString.Malloc) (stream : CString) (hfd : state.stdoutRead = some fd)
    (hmax : 0 < maxBytes) (hmalloc : malloc (maxBytes.toNat + 1) = true) :
    readLines (some state) maxBytes malloc (stream.strlen + 1) stream.bytes =
        some ((streamLines stream.bytes).flatMap (delivered maxBytes.toNat)) ↔
      ∀ line ∈ streamLines stream.bytes, Unbroken maxBytes.toNat line := by
  have hsize : 0 < maxBytes.toNat := by omega
  rw [readLines_eq hfd hmax hmalloc (show stream.bytes.length < stream.strlen + 1 from
    Nat.lt_succ_self _), Option.some.injEq,
    flatMap_eq_iff fun line _ => length_delivered_le hsize]
  exact forall₂_congr fun line _ => readOf_eq_delivered_iff hsize

/-- A child of which only the output is open. -/
def readingState : State := ⟨0, none, some 0, none, false, 0⟩

/-- The stream `ab`, carriage return, newline, `c`. -/
theorem line_reads_partition_two_lines :
    readLines (some readingState) 8 (fun _ => true) 6 [97, 98, 13, 10, 99] =
      some [[97, 98], [99]] :=
  (line_reads_partition_iff readingState 0 8 (fun _ => true) ⟨[97, 98, 13, 10, 99], by simp⟩ rfl
    (by decide) rfl).mpr (by
      intro line hline
      rw [← readOf_eq_delivered_iff (by decide)]
      revert line
      decide)

/-- A line of just the largest length is followed by an empty one. -/
theorem full_line_adds_empty_line :
    ¬ (∀ (state : State) (fd : Fd) (maxBytes : Int) (stream : CString),
      state.stdoutRead = some fd → 0 < maxBytes →
        readLines (some state) maxBytes (fun _ => true) (stream.strlen + 1) stream.bytes =
          some ((streamLines stream.bytes).flatMap (delivered maxBytes.toNat))) ∧
    readLines (some readingState) 2 (fun _ => true) 4 [97, 98, 10] = some [[97, 98], []] := by
  have hread : readLines (some readingState) 2 (fun _ => true) 4 [97, 98, 10] =
      some [[97, 98], []] := by decide
  refine ⟨fun hall => ?_, hread⟩
  have hlines := hall readingState 0 2 ⟨[97, 98, 10], by simp⟩ rfl (by decide)
  exact absurd (hread.symm.trans hlines) (by decide)

end Ipc

end Cnegative
