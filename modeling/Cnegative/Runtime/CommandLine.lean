import Cnegative.Runtime.CString

namespace Cnegative

namespace CommandLine

/-! The command line that `std.ipc` builds for Windows. -/

def backslash : UInt8 := 92
def quote : UInt8 := 34
def space : UInt8 := 32
def tab : UInt8 := 9

/-- What `realloc` answers for a number of bytes: whether there is room. -/
abbrev Realloc := Nat → Bool

/-- The bytes in front of the NUL, and the capacity. -/
structure Buffer where
  text : Text
  capacity : Nat

/-- The doubling of `next`; at least one byte is added in each of the turns. -/
def growFrom (needed : Nat) : Nat → Nat → Nat
  | 0, next => next
  | turns + 1, next => if next < needed then growFrom needed turns (next * 2) else next

/-- `cn_ipc_append_char`; `none` is an allocation that failed. -/
def appendChar (realloc : Realloc) (ch : UInt8) (buffer : Buffer) : Option Buffer :=
  let needed := buffer.text.length + 2
  if buffer.capacity < needed then
    let next := growFrom needed needed (if buffer.capacity = 0 then 64 else buffer.capacity * 2)
    if realloc next then some ⟨buffer.text ++ [ch], next⟩ else none
  else some ⟨buffer.text ++ [ch], buffer.capacity⟩

/-- `cn_ipc_append_text`, and the loops that repeat a backslash. -/
def appendText (realloc : Realloc) : Text → Buffer → Option Buffer
  | [], buffer => some buffer
  | ch :: rest, buffer => (appendChar realloc ch buffer).bind (appendText realloc rest)

def slashRun (cursor : Text) : Nat := (cursor.takeWhile (· == backslash)).length

/-- The loop of `cn_ipc_append_quoted_windows_arg`. The cursor moves on in each turn. -/
def quoteLoop (realloc : Realloc) : Nat → Text → Buffer → Option Buffer
  | 0, _, _ => none
  | _ + 1, [], buffer => some buffer
  | turns + 1, first :: rest, buffer =>
      let slashes := slashRun (first :: rest)
      match (first :: rest).drop slashes with
      | [] => appendText realloc (List.replicate (slashes * 2) backslash) buffer
      | ch :: behind =>
          if ch = quote then
            (appendText realloc (List.replicate (slashes * 2 + 1) backslash) buffer).bind
              fun buffer => (appendChar realloc quote buffer).bind (quoteLoop realloc turns behind)
          else
            (appendText realloc (List.replicate slashes backslash) buffer).bind
              fun buffer => (appendChar realloc first buffer).bind (quoteLoop realloc turns rest)

/-- `strpbrk` finds something, or there is nothing to search. -/
def needsQuotes (arg : Text) : Bool :=
  arg.isEmpty || arg.any fun ch => ch == space || ch == tab || ch == quote

def appendQuotedWindowsArg (realloc : Realloc) (arg : Option CString) (buffer : Buffer) :
    Option Buffer :=
  let cursor := (arg.getD CString.empty).bytes
  if needsQuotes cursor then
    (appendChar realloc quote buffer).bind fun buffer =>
      (quoteLoop realloc (cursor.length + 1) cursor buffer).bind (appendChar realloc quote)
  else appendText realloc cursor buffer

def appendArgs (realloc : Realloc) : List CString → Buffer → Option Buffer
  | [], buffer => some buffer
  | arg :: args, buffer =>
      (appendChar realloc space buffer).bind fun buffer =>
        (appendQuotedWindowsArg realloc (some arg) buffer).bind (appendArgs realloc args)

def buildWindowsCommandLine (realloc : Realloc) (program : CString) (args : List CString) :
    Option Text :=
  ((appendQuotedWindowsArg realloc (some program) ⟨[], 0⟩).bind (appendArgs realloc args)).map
    Buffer.text

/-! How a command line is split: by the rules for arguments, and by the rule for the name of
the program, where a backslash is nothing special. -/

def isBlank (ch : UInt8) : Bool := ch == space || ch == tab

/-- The backslashes in front of a byte that is no quote. -/
def literal (current : Option Text) (slashes : Nat) : Text :=
  current.getD [] ++ List.replicate slashes backslash

/-- `current` is the argument so far, without the last `slashes` backslashes. -/
def splitFrom : Text → Option Text → Nat → Bool → List Text
  | [], none, _, _ => []
  | [], some current, slashes, _ => [literal (some current) slashes]
  | ch :: rest, current, slashes, quoted =>
      if ch = backslash then splitFrom rest (some (current.getD [])) (slashes + 1) quoted
      else if ch = quote then
        if slashes % 2 = 1 then
          splitFrom rest (some (literal current (slashes / 2) ++ [quote])) 0 quoted
        else splitFrom rest (some (literal current (slashes / 2))) 0 (!quoted)
      else if isBlank ch && !quoted then
        match current with
        | none => splitFrom rest none 0 false
        | some _ => literal current slashes :: splitFrom rest none 0 false
      else splitFrom rest (some (literal current slashes ++ [ch])) 0 quoted

def split (line : Text) : List Text := splitFrom line none 0 false

def behindProgram : Text → Bool → Text
  | [], _ => []
  | ch :: rest, quoted =>
      if ch = quote then behindProgram rest (!quoted)
      else if isBlank ch && !quoted then rest
      else behindProgram rest quoted

def splitArguments (line : Text) : List Text := split (behindProgram line false)

/-! What the loop writes, one byte of the argument after the other. -/

/-- The run of backslashes at the front is followed by a byte other than a quote. -/
def runBeforeOther : Text → Bool
  | [] => false
  | ch :: rest => if ch = backslash then runBeforeOther rest else ch != quote

/-- A backslash in such a run is repeated with all those behind it. -/
def escaped : Text → Text
  | [] => []
  | ch :: rest =>
      if ch = backslash then
        List.replicate (if runBeforeOther rest then slashRun rest + 2 else 2) backslash ++
          escaped rest
      else if ch = quote then backslash :: quote :: escaped rest
      else ch :: escaped rest

def quotedArg (arg : Text) : Text :=
  if needsQuotes arg then quote :: escaped arg ++ [quote] else arg

def mangled : Text → Text
  | [] => []
  | ch :: rest =>
      if ch = backslash then
        List.replicate (if runBeforeOther rest then slashRun rest + 2 else 1) backslash ++
          mangled rest
      else ch :: mangled rest

def mangledArg (arg : Text) : Text := if needsQuotes arg then mangled arg else arg

/-- A backslash in front of a byte that is neither a backslash nor a quote. -/
def SlashBeforeOther (arg : Text) : Prop :=
  ∃ front ch back, arg = front ++ backslash :: ch :: back ∧ ch ≠ backslash ∧ ch ≠ quote

/-- The argument needs no quotes, or has no such backslash. -/
def Kept (arg : Text) : Prop := needsQuotes arg = true → ¬ SlashBeforeOther arg

/-! The text that is built, whatever the capacities. -/

theorem appendChar_text {realloc : Realloc} {ch : UInt8} {buffer after : Buffer}
    (hrun : appendChar realloc ch buffer = some after) : after.text = buffer.text ++ [ch] := by
  unfold appendChar at hrun
  dsimp only at hrun
  split_ifs at hrun
  all_goals cases hrun
  all_goals rfl

theorem appendText_text {realloc : Realloc} {text : Text} {buffer after : Buffer}
    (hrun : appendText realloc text buffer = some after) : after.text = buffer.text ++ text := by
  induction text generalizing buffer with
  | nil =>
      obtain rfl := Option.some.inj hrun
      rw [List.append_nil]
  | cons ch rest ih =>
      obtain ⟨middle, hchar, hrest⟩ := Option.bind_eq_some_iff.mp hrun
      rw [ih hrest, appendChar_text hchar, List.append_assoc, List.singleton_append]

theorem slashRun_spec (cursor : Text) :
    ∃ behind, cursor = List.replicate (slashRun cursor) backslash ++ behind ∧
      cursor.drop (slashRun cursor) = behind ∧ behind.head? ≠ some backslash := by
  induction cursor with
  | nil => exact ⟨[], rfl, rfl, by simp⟩
  | cons ch rest ih =>
      by_cases hch : ch = backslash
      · obtain ⟨behind, hsplit, hdrop, hhead⟩ := ih
        have hrun : slashRun (ch :: rest) = slashRun rest + 1 := by
          simp [slashRun, hch]
        refine ⟨behind, ?_, ?_, hhead⟩
        · rw [hrun, List.replicate_succ, List.cons_append, ← hsplit, hch]
        · rw [hrun, List.drop_succ_cons, hdrop]
      · have hrun : slashRun (ch :: rest) = 0 := by simp [slashRun, hch]
        refine ⟨ch :: rest, ?_, ?_, by simpa using hch⟩
        · rw [hrun]
          rfl
        · rw [hrun]
          rfl

theorem runBeforeOther_replicate (count : Nat) (behind : Text) :
    runBeforeOther (List.replicate count backslash ++ behind) = runBeforeOther behind := by
  induction count with
  | zero => rfl
  | succ count ih =>
      rw [List.replicate_succ, List.cons_append, runBeforeOther, if_pos rfl, ih]

theorem replicate_add_append (left right : Nat) (behind : Text) :
    List.replicate left backslash ++ (List.replicate right backslash ++ behind) =
      List.replicate (left + right) backslash ++ behind := by
  rw [← List.append_assoc, List.replicate_append_replicate]

/-- In front of a quote, or at the end, each backslash becomes two. -/
theorem escaped_replicate (count : Nat) {behind : Text} (hbehind : runBeforeOther behind = false) :
    escaped (List.replicate count backslash ++ behind) =
      List.replicate (count * 2) backslash ++ escaped behind := by
  induction count with
  | zero => rfl
  | succ count ih =>
      rw [List.replicate_succ, List.cons_append, escaped, if_pos rfl, runBeforeOther_replicate,
        hbehind, ih, replicate_add_append]
      congr 2
      simp only [Bool.false_eq_true, if_false]
      omega

theorem quoteLoop_text {realloc : Realloc} {turns : Nat} {cursor : Text} {buffer after : Buffer}
    (hrun : quoteLoop realloc turns cursor buffer = some after) :
    after.text = buffer.text ++ escaped cursor := by
  induction turns generalizing cursor buffer with
  | zero => cases hrun
  | succ turns ih =>
      cases cursor with
      | nil =>
          obtain rfl := Option.some.inj hrun
          rw [escaped, List.append_nil]
      | cons first rest =>
          obtain ⟨behind, hsplit, hdrop, hhead⟩ := slashRun_spec (first :: rest)
          generalize hslashes : slashRun (first :: rest) = slashes at hsplit hdrop
          rw [quoteLoop] at hrun
          simp only [hslashes, hdrop] at hrun
          cases behind with
          | nil =>
              rw [appendText_text hrun, hsplit, escaped_replicate _ rfl, escaped, List.append_nil]
          | cons ch behind =>
              dsimp only at hrun
              by_cases hquote : ch = quote
              · rw [if_pos hquote] at hrun
                obtain ⟨slashed, hslashed, hrun⟩ := Option.bind_eq_some_iff.mp hrun
                obtain ⟨quoted, hquoted, hrun⟩ := Option.bind_eq_some_iff.mp hrun
                have hother : runBeforeOther (ch :: behind) = false := by
                  rw [hquote]
                  rfl
                rw [ih hrun, appendChar_text hquoted, appendText_text hslashed, hsplit,
                  escaped_replicate _ hother, hquote, escaped, if_neg (by decide), if_pos rfl]
                simp [List.replicate_succ']
              · rw [if_neg hquote] at hrun
                obtain ⟨slashed, hslashed, hrun⟩ := Option.bind_eq_some_iff.mp hrun
                obtain ⟨next, hnext, hrun⟩ := Option.bind_eq_some_iff.mp hrun
                rw [ih hrun, appendChar_text hnext, appendText_text hslashed]
                cases slashes with
                | zero =>
                    obtain ⟨rfl, rfl⟩ := List.cons.inj hsplit
                    rw [escaped, if_neg (by simpa using hhead), if_neg hquote]
                    simp
                | succ count =>
                    obtain ⟨rfl, hrest⟩ := List.cons.inj hsplit
                    have hcount : slashRun rest + 1 = count + 1 := by
                      rw [← hslashes]
                      simp [slashRun]
                    have hbefore : runBeforeOther rest = true := by
                      rw [hrest]
                      change runBeforeOther (List.replicate count backslash ++ _) = true
                      rw [runBeforeOther_replicate, runBeforeOther, if_neg (by simpa using hhead)]
                      simpa using hquote
                    rw [escaped, if_pos rfl, hbefore, if_pos rfl,
                      show slashRun rest + 2 = count + 1 + 1 by omega,
                      List.replicate_succ' (n := count + 1)]
                    simp

theorem appendQuotedWindowsArg_text {realloc : Realloc} {arg : CString} {buffer after : Buffer}
    (hrun : appendQuotedWindowsArg realloc (some arg) buffer = some after) :
    after.text = buffer.text ++ quotedArg arg.bytes := by
  unfold appendQuotedWindowsArg at hrun
  simp only [Option.getD_some] at hrun
  unfold quotedArg
  split at hrun
  case isTrue hneeds =>
    obtain ⟨opened, hopened, hrun⟩ := Option.bind_eq_some_iff.mp hrun
    obtain ⟨looped, hlooped, hclosed⟩ := Option.bind_eq_some_iff.mp hrun
    rw [appendChar_text hclosed, quoteLoop_text hlooped, appendChar_text hopened, if_pos hneeds]
    simp
  case isFalse hneeds =>
    rw [appendText_text hrun, if_neg hneeds]

theorem appendArgs_text {realloc : Realloc} {args : List CString} {buffer after : Buffer}
    (hrun : appendArgs realloc args buffer = some after) :
    after.text = buffer.text ++ args.flatMap fun arg => space :: quotedArg arg.bytes := by
  induction args generalizing buffer with
  | nil =>
      obtain rfl := Option.some.inj hrun
      rw [List.flatMap_nil, List.append_nil]
  | cons arg args ih =>
      obtain ⟨spaced, hspaced, hrun⟩ := Option.bind_eq_some_iff.mp hrun
      obtain ⟨quoted, hquoted, hrun⟩ := Option.bind_eq_some_iff.mp hrun
      rw [ih hrun, appendQuotedWindowsArg_text hquoted, appendChar_text hspaced,
        List.flatMap_cons]
      simp

theorem buildWindowsCommandLine_text {realloc : Realloc} {program : CString}
    {args : List CString} {line : Text}
    (hline : buildWindowsCommandLine realloc program args = some line) :
    line = quotedArg program.bytes ++ args.flatMap fun arg => space :: quotedArg arg.bytes := by
  obtain ⟨buffer, hrun, rfl⟩ := Option.map_eq_some_iff.mp hline
  obtain ⟨named, hnamed, hrun⟩ := Option.bind_eq_some_iff.mp hrun
  rw [appendArgs_text hrun, appendQuotedWindowsArg_text hnamed, List.nil_append]

/-! Splitting what was built. -/

theorem splitFrom_backslashes (count : Nat) (line current : Text) (slashes : Nat) (quoted : Bool) :
    splitFrom (List.replicate count backslash ++ line) (some current) slashes quoted =
      splitFrom line (some current) (slashes + count) quoted := by
  induction count generalizing slashes with
  | zero => rfl
  | succ count ih =>
      rw [List.replicate_succ, List.cons_append, splitFrom, if_pos rfl, Option.getD_some, ih]
      congr 1
      omega

/-- In quotes, from a cursor on: the backslashes that wait are kept as they are in front of
another byte, and halved in front of a quote. -/
theorem splitFrom_escaped (text line current : Text) (slashes : Nat) :
    splitFrom (escaped text ++ quote :: line) (some current)
        (if runBeforeOther text then slashes else 2 * slashes) true =
      splitFrom line (some (current ++ List.replicate slashes backslash ++ mangled text)) 0
        false := by
  induction text generalizing current slashes with
  | nil =>
      rw [escaped, List.nil_append, splitFrom, if_neg (by decide), if_pos rfl]
      simp [runBeforeOther, literal, mangled]
  | cons ch rest ih =>
      rw [escaped, mangled, runBeforeOther]
      by_cases hslash : ch = backslash
      · rw [if_pos hslash, if_pos hslash, if_pos hslash, List.append_assoc, splitFrom_backslashes]
        cases hother : runBeforeOther rest with
        | true =>
            have hrest := ih current (slashes + (slashRun rest + 2))
            rw [hother] at hrest
            simp only [if_true] at hrest ⊢
            rw [hrest, List.append_assoc current, List.append_assoc current, replicate_add_append]
        | false =>
            have hrest := ih current (slashes + 1)
            rw [hother] at hrest
            simp only [Bool.false_eq_true, if_false, Nat.mul_add, Nat.mul_one] at hrest ⊢
            rw [hrest, List.append_assoc current, List.append_assoc current, replicate_add_append]
      rw [if_neg hslash, if_neg hslash, if_neg hslash]
      have hstart : ∀ line' current', splitFrom (escaped rest ++ line') (some current') 0 true =
          splitFrom (escaped rest ++ line') (some current')
            (if runBeforeOther rest then 0 else 2 * 0) true := by
        intro line' current'
        rw [Nat.mul_zero, ite_self]
      by_cases hquote : ch = quote
      · rw [if_pos hquote, hquote]
        simp only [bne_self_eq_false, Bool.false_eq_true, if_false, List.cons_append]
        rw [splitFrom, if_pos rfl, splitFrom, if_neg (by decide), if_pos rfl,
          if_pos (by omega), hstart, ih, show (2 * slashes + 1) / 2 = slashes by omega]
        simp [literal]
      · have hother : (ch != quote) = true := by simpa using hquote
        rw [if_neg hquote, hother, if_pos rfl, List.cons_append, splitFrom, if_neg hslash,
          if_neg hquote, Bool.not_true, Bool.and_false, if_neg (by decide), hstart, ih]
        simp [literal]

/-- The line is at its end or goes on with a blank. -/
def Ends (line : Text) : Prop := line = [] ∨ ∃ rest, line = space :: rest

theorem splitFrom_space (rest current : Text) (slashes : Nat) :
    splitFrom (space :: rest) (some current) slashes false =
      literal (some current) slashes :: splitFrom rest none 0 false := by
  rw [splitFrom, if_neg (show ¬ space = backslash by decide),
    if_neg (show ¬ space = quote by decide), if_pos (by decide)]

theorem splitFrom_ends {line : Text} (hends : Ends line) (current : Text) (slashes : Nat) :
    splitFrom line (some current) slashes false =
      splitFrom line (some (current ++ List.replicate slashes backslash)) 0 false := by
  obtain rfl | ⟨rest, rfl⟩ := hends
  · simp [splitFrom, literal]
  · rw [splitFrom_space, splitFrom_space]
    simp [literal]

theorem splitFrom_plain {line : Text} (hends : Ends line) (arg current : Text) (slashes : Nat)
    (hplain : ∀ ch ∈ arg, ch ≠ space ∧ ch ≠ tab ∧ ch ≠ quote) :
    splitFrom (arg ++ line) (some current) slashes false =
      splitFrom line (some (current ++ List.replicate slashes backslash ++ arg)) 0 false := by
  induction arg generalizing current slashes with
  | nil => rw [List.nil_append, List.append_nil, splitFrom_ends hends]
  | cons ch rest ih =>
      have hrest : ∀ other ∈ rest, other ≠ space ∧ other ≠ tab ∧ other ≠ quote :=
        fun other hother => hplain other (List.mem_cons_of_mem _ hother)
      obtain ⟨hspace, htab, hquote⟩ := hplain ch List.mem_cons_self
      rw [List.cons_append, splitFrom]
      by_cases hslash : ch = backslash
      · rw [if_pos hslash, Option.getD_some, ih _ _ hrest, hslash, List.replicate_succ']
        simp
      · have hblank : (isBlank ch && !false) = false := by simp [isBlank, hspace, htab]
        rw [if_neg hslash, if_neg hquote, hblank, if_neg (by decide), ih _ _ hrest]
        simp [literal]

theorem plain_of_not_needsQuotes {arg : Text} (hneeds : ¬ needsQuotes arg = true) :
    arg ≠ [] ∧ ∀ ch ∈ arg, ch ≠ space ∧ ch ≠ tab ∧ ch ≠ quote := by
  simpa [needsQuotes, not_or, and_assoc] using hneeds

theorem splitFrom_quotedArg {line : Text} (hends : Ends line) (arg : Text) :
    splitFrom (quotedArg arg ++ line) none 0 false =
      splitFrom line (some (mangledArg arg)) 0 false := by
  unfold quotedArg mangledArg
  by_cases hneeds : needsQuotes arg = true
  · have hescaped := splitFrom_escaped arg line [] 0
    rw [Nat.mul_zero, ite_self] at hescaped
    rw [if_pos hneeds, if_pos hneeds, List.cons_append, List.cons_append, List.append_assoc,
      List.singleton_append, splitFrom, if_neg (by decide), if_pos rfl, if_neg (by decide)]
    exact hescaped
  · obtain ⟨hnonempty, hplain⟩ := plain_of_not_needsQuotes hneeds
    rw [if_neg hneeds, if_neg hneeds]
    cases arg with
    | nil => exact absurd rfl hnonempty
    | cons ch rest =>
        have hstart : splitFrom (ch :: rest ++ line) none 0 false =
            splitFrom (ch :: rest ++ line) (some []) 0 false := by
          obtain ⟨hspace, htab, hquote⟩ := hplain ch List.mem_cons_self
          have hblank : (isBlank ch && !false) = false := by simp [isBlank, hspace, htab]
          rw [List.cons_append, splitFrom, splitFrom, hblank]
          rfl
        rw [hstart, splitFrom_plain hends _ _ _ hplain]
        rfl

theorem splitFrom_args (args : List CString) (current : Text) :
    splitFrom (args.flatMap fun arg => space :: quotedArg arg.bytes) (some current) 0 false =
      current :: args.map fun arg => mangledArg arg.bytes := by
  induction args generalizing current with
  | nil => simp [splitFrom, literal]
  | cons arg args ih =>
      have hends : Ends (args.flatMap fun arg => space :: quotedArg arg.bytes) := by
        cases args with
        | nil => exact Or.inl rfl
        | cons next args => exact Or.inr ⟨_, rfl⟩
      rw [List.flatMap_cons, List.cons_append, splitFrom_space, List.map_cons,
        splitFrom_quotedArg hends, ih]
      simp [literal]

/-! Which arguments come back. -/

theorem slashBeforeOther_cons (first : UInt8) (rest : Text) :
    SlashBeforeOther (first :: rest) ↔
      (first = backslash ∧ ∃ ch back, rest = ch :: back ∧ ch ≠ backslash ∧ ch ≠ quote) ∨
        SlashBeforeOther rest := by
  constructor
  · rintro ⟨front, ch, back, hsplit, hch⟩
    cases front with
    | nil =>
        obtain ⟨rfl, rfl⟩ := List.cons.inj hsplit
        exact Or.inl ⟨rfl, ch, back, rfl, hch⟩
    | cons _ front =>
        obtain ⟨-, hrest⟩ := List.cons.inj hsplit
        exact Or.inr ⟨front, ch, back, hrest, hch⟩
  · rintro (⟨rfl, ch, back, rfl, hch⟩ | ⟨front, ch, back, rfl, hch⟩)
    · exact ⟨[], ch, back, rfl, hch⟩
    · exact ⟨first :: front, ch, back, rfl, hch⟩

theorem slashBeforeOther_of_run {rest : Text} (hrun : runBeforeOther rest = true) :
    SlashBeforeOther (backslash :: rest) := by
  induction rest with
  | nil => cases hrun
  | cons ch rest ih =>
      rw [slashBeforeOther_cons]
      rw [runBeforeOther] at hrun
      by_cases hslash : ch = backslash
      · rw [if_pos hslash] at hrun
        rw [hslash]
        exact Or.inr (ih hrun)
      · rw [if_neg hslash] at hrun
        exact Or.inl ⟨rfl, ch, rest, rfl, hslash, by simpa using hrun⟩

theorem length_le_mangled (arg : Text) : arg.length ≤ (mangled arg).length := by
  induction arg with
  | nil => exact Nat.le_refl _
  | cons ch rest ih =>
      rw [mangled]
      split
      · rw [List.length_append, List.length_replicate, List.length_cons]
        split <;> omega
      · exact Nat.succ_le_succ ih

theorem mangled_eq_iff (arg : Text) : mangled arg = arg ↔ ¬ SlashBeforeOther arg := by
  induction arg with
  | nil =>
      refine iff_of_true rfl ?_
      rintro ⟨front, ch, back, hsplit, -⟩
      cases front <;> cases hsplit
  | cons ch rest ih =>
      rw [slashBeforeOther_cons, not_or, ← ih, mangled]
      by_cases hslash : ch = backslash
      · rw [if_pos hslash]
        cases hother : runBeforeOther rest with
        | true =>
            -- At least one backslash more comes back.
            refine iff_of_false (fun heq => ?_) fun hgood => ?_
            · have hlength := congrArg List.length heq
              have hle := length_le_mangled rest
              simp only [if_true, List.length_append, List.length_replicate,
                List.length_cons] at hlength
              omega
            · have hrest := hgood.2
              rw [ih] at hrest
              have hfound := slashBeforeOther_of_run hother
              rw [slashBeforeOther_cons] at hfound
              exact hfound.elim (hgood.1 ⟨hslash, ·.2⟩) hrest
        | false =>
            have hfollowed : ¬ ∃ other back, rest = other :: back ∧ other ≠ backslash ∧
                other ≠ quote := by
              rintro ⟨other, back, rfl, hneSlash, hneQuote⟩
              rw [runBeforeOther, if_neg hneSlash] at hother
              exact hneQuote (by simpa using hother)
            rw [hslash]
            simp only [Bool.false_eq_true, if_false, List.replicate_one, List.singleton_append,
              List.cons.injEq, true_and]
            exact ⟨fun heq => ⟨fun hboth => hfollowed hboth, heq⟩, And.right⟩
      · rw [if_neg hslash, List.cons.injEq]
        exact ⟨fun heq => ⟨fun hboth => hslash hboth.1, heq.2⟩, fun hboth => ⟨rfl, hboth.2⟩⟩

theorem mangledArg_eq_iff (arg : Text) : mangledArg arg = arg ↔ Kept arg := by
  unfold mangledArg Kept
  by_cases hneeds : needsQuotes arg = true
  · rw [if_pos hneeds, mangled_eq_iff]
    exact ⟨fun hkept _ => hkept, fun hkept => hkept hneeds⟩
  · rw [if_neg hneeds]
    exact iff_of_true rfl fun hneeds' => absurd hneeds' hneeds

theorem map_mangledArg_eq_iff (args : List CString) :
    args.map (fun arg => mangledArg arg.bytes) = args.map CString.bytes ↔
      ∀ arg ∈ args, Kept arg.bytes := by
  rw [List.map_inj_left]
  exact forall₂_congr fun arg _ => mangledArg_eq_iff arg.bytes

/-! The name of the program. -/

theorem behindProgram_skip {front : Text} (quoted : Bool) (line : Text)
    (hquote : ∀ ch ∈ front, ch ≠ quote) (hblank : quoted = false → ∀ ch ∈ front, ¬ isBlank ch) :
    behindProgram (front ++ line) quoted = behindProgram line quoted := by
  induction front with
  | nil => rfl
  | cons ch rest ih =>
      have hhead : (isBlank ch && !quoted) = false := by
        cases quoted with
        | true => rw [Bool.not_true, Bool.and_false]
        | false => simpa using hblank rfl ch List.mem_cons_self
      rw [List.cons_append, behindProgram, if_neg (hquote ch List.mem_cons_self), hhead]
      exact ih (fun other hother => hquote other (List.mem_cons_of_mem _ hother))
        fun hfalse other hother => hblank hfalse other (List.mem_cons_of_mem _ hother)

theorem escaped_quoteFree {text : Text} (hfree : ∀ ch ∈ text, ch ≠ quote) :
    ∀ ch ∈ escaped text, ch ≠ quote := by
  induction text with
  | nil => simp [escaped]
  | cons first rest ih =>
      have hrest := ih fun ch hch => hfree ch (List.mem_cons_of_mem _ hch)
      intro ch hch
      rw [escaped] at hch
      split at hch
      · obtain hslash | hmem := List.mem_append.mp hch
        · rw [(List.mem_replicate.mp hslash).2]
          decide
        · exact hrest ch hmem
      · rw [if_neg (hfree first List.mem_cons_self)] at hch
        obtain rfl | hmem := List.mem_cons.mp hch
        · exact hfree ch List.mem_cons_self
        · exact hrest ch hmem

theorem behindProgram_quotedArg {program : Text} (hfree : ∀ ch ∈ program, ch ≠ quote)
    (line : Text) : behindProgram (quotedArg program ++ line) false = behindProgram line false := by
  unfold quotedArg
  by_cases hneeds : needsQuotes program = true
  · rw [if_pos hneeds, List.cons_append, List.cons_append, List.append_assoc,
      List.singleton_append, behindProgram, if_pos rfl,
      behindProgram_skip _ _ (escaped_quoteFree hfree) (by simp), behindProgram, if_pos rfl]
    rfl
  · rw [if_neg hneeds]
    refine behindProgram_skip _ _ hfree fun _ ch hch => ?_
    obtain ⟨hspace, htab, -⟩ := (plain_of_not_needsQuotes hneeds).2 ch hch
    simp [isBlank, hspace, htab]

theorem split_behindProgram_args (args : List CString) :
    split (behindProgram (args.flatMap fun arg => space :: quotedArg arg.bytes) false) =
      args.map fun arg => mangledArg arg.bytes := by
  cases args with
  | nil => rfl
  | cons arg args =>
      have hends : Ends (args.flatMap fun arg => space :: quotedArg arg.bytes) := by
        cases args with
        | nil => exact Or.inl rfl
        | cons next args => exact Or.inr ⟨_, rfl⟩
      rw [List.flatMap_cons, List.cons_append, behindProgram,
        if_neg (show ¬ space = quote by decide), if_pos (by decide), split,
        splitFrom_quotedArg hends, splitFrom_args, List.map_cons]

/-- The name and the arguments come back just when none of those that are quoted has a backslash
in front of another byte; behind a name without quotes, the arguments do so by themselves. -/
theorem command_line_round_trip_iff (realloc : Realloc) (program : CString) (args : List CString)
    (line : Text) (hline : buildWindowsCommandLine realloc program args = some line) :
    (split line = program.bytes :: args.map CString.bytes ↔
      ∀ arg ∈ program :: args, Kept arg.bytes) ∧
    ((∀ ch ∈ program.bytes, ch ≠ quote) →
      (splitArguments line = args.map CString.bytes ↔ ∀ arg ∈ args, Kept arg.bytes)) := by
  have htext := buildWindowsCommandLine_text hline
  constructor
  · have hends : Ends (args.flatMap fun arg => space :: quotedArg arg.bytes) := by
      cases args with
      | nil => exact Or.inl rfl
      | cons next args => exact Or.inr ⟨_, rfl⟩
    rw [htext, split, splitFrom_quotedArg hends, splitFrom_args, ← map_mangledArg_eq_iff,
      List.map_cons, List.map_cons]
  · intro hfree
    rw [htext, splitArguments, behindProgram_quotedArg hfree, split_behindProgram_args,
      map_mangledArg_eq_iff]

/-- The program `a` with the argument `b "c\"`. -/
theorem command_line_round_trip_quote :
    split [97, 32, 34, 98, 32, 92, 34, 99, 92, 92, 92, 34, 34] = [[97], [98, 32, 34, 99, 92, 34]] :=
  (command_line_round_trip_iff (fun _ => true) ⟨[97], by simp⟩
    [⟨[98, 32, 34, 99, 92, 34], by simp⟩] _ (by decide)).1.mpr (by
      intro arg harg
      rw [← mangledArg_eq_iff]
      revert arg
      decide)

/-- The argument `a\b c` comes back with its backslash twice. -/
theorem backslash_comes_back_twice :
    ¬ (∀ (program : CString) (args : List CString) (line : Text),
      buildWindowsCommandLine (fun _ => true) program args = some line →
        split line = program.bytes :: args.map CString.bytes ∨
          splitArguments line = args.map CString.bytes) ∧
    (buildWindowsCommandLine (fun _ => true) ⟨[112], by simp⟩
      [⟨[97, 92, 98, 32, 99], by simp⟩]).map splitArguments =
        some [[97, 92, 92, 98, 32, 99]] := by
  have hbuilt : buildWindowsCommandLine (fun _ => true) ⟨[112], by simp⟩
      [⟨[97, 92, 98, 32, 99], by simp⟩] =
        some [112, 32, 34, 97, 92, 92, 98, 32, 99, 34] := by decide
  refine ⟨fun hround => ?_, by rw [hbuilt]; decide⟩
  exact absurd (hround _ _ _ hbuilt) (by decide)

end CommandLine

end Cnegative
