import Cnegative.Runtime.ReadLine

namespace Cnegative

namespace Ipc

/-! Writing text to a child and to a socket. The kernel answers each call with how many
of the offered bytes it takes. -/

/-- By the number of calls so far and the number of bytes that are offered; `none` is a failure. -/
abbrev Kernel := Nat → Nat → Option Nat

/-- A call takes at least one byte, and no more than are offered. -/
def Kernel.Lawful (kernel : Kernel) : Prop :=
  ∀ call offered taken, 0 < offered → kernel call offered = some taken →
    0 < taken ∧ taken ≤ offered

/-- What one end of a pipe or a socket has seen: how many calls, the bytes that were delivered,
what had been delivered at each attempt to read, and the bytes that are there to read. -/
structure Channel where
  calls : Nat
  delivered : Text
  readAt : List Text
  incoming : Text
  deriving DecidableEq, Repr

/-- `write` or `send`. -/
def write (kernel : Kernel) (data : Text) (channel : Channel) : Int × Channel :=
  match kernel channel.calls data.length with
  | none => (-1, { channel with calls := channel.calls + 1 })
  | some taken =>
      (taken, { channel with
        calls := channel.calls + 1
        delivered := channel.delivered ++ data.take taken })

/-- `cn_ipc_stdin_write_line`; `none` is err. -/
def stdinWriteLine (kernel : Kernel) (child : Option State) (value : Option CString)
    (channel : Channel) : Option Int × Channel :=
  let (written, channel) :=
    nativeStdinWriteLine (fun _ => write kernel) child (value.map CString.bytes) channel
  if 0 ≤ written then (some written, channel) else (none, channel)

def requestLine (kernel : Kernel) (malloc : CString.Malloc) (child : Option State)
    (value : CString) (maxBytes : Int) (channel : Channel) : Option Text × Channel :=
  match stdinWriteLine kernel child (some value) channel with
  | (none, channel) => (none, channel)
  | (some written, channel) =>
      if written = value.strlen + 1 then
        let (line, incoming) := stdoutReadLine child maxBytes malloc channel.incoming
        (line, { channel with
          readAt := channel.readAt ++ [channel.delivered]
          incoming := incoming })
      else (none, channel)

/-- The loop of `cn_net_send_all`; `none` is a loop that has not ended after so many turns. -/
def sendFrom (kernel : Kernel) (data : Text) : Nat → Nat → Channel →
    Option (Option Nat × Channel)
  | 0, _, _ => none
  | turns + 1, total, channel =>
      if data.length - total = 0 then some (some total, channel)
      else
        let (written, channel) := write kernel (data.drop total) channel
        if 0 < written then sendFrom kernel data turns (total + written.toNat) channel
        else some (none, channel)

def sendAll (kernel : Kernel) (data : CString) (channel : Channel) :
    Option (Option Nat × Channel) :=
  sendFrom kernel data.bytes (data.strlen + 1) 0 channel

/-! Whole or reported. -/

def wholeLine (value : CString) : Text := value.bytes ++ [newline]

/-- An ok of `stdin_write_line` stands for the whole line, and the newline is last. -/
structure LineWhole (kernel : Kernel) (child : Option State) (value : CString)
    (channel : Channel) : Prop where
  ok : ∀ count, (stdinWriteLine kernel child (some value) channel).1 = some count →
    (stdinWriteLine kernel child (some value) channel).2.delivered =
      channel.delivered ++ wholeLine value ∧ count = value.strlen + 1
  last : ∃ out, (stdinWriteLine kernel child (some value) channel).2.delivered =
    channel.delivered ++ out ∧ out <+: wholeLine value

def RequestWhole (kernel : Kernel) (malloc : CString.Malloc) (child : Option State)
    (value : CString) (maxBytes : Int) (channel : Channel) : Prop :=
  ∃ later, (requestLine kernel malloc child value maxBytes channel).2.readAt =
      channel.readAt ++ later ∧
    ∀ delivered ∈ later, delivered = channel.delivered ++ wholeLine value

def SendWhole (kernel : Kernel) (data : CString) (channel : Channel) : Prop :=
  ∃ result after, sendAll kernel data channel = some (result, after) ∧
    ∀ count, result = some count →
      after.delivered = channel.delivered ++ data.bytes ∧ count = data.strlen

/-- The text is not taken in part with the newline behind it. -/
def NotSplit (kernel : Kernel) (child : Option State) (value : CString) (channel : Channel) :
    Prop :=
  (child.bind State.stdinWrite).isSome → ∀ taken, kernel channel.calls value.strlen = some taken →
    taken < value.strlen → kernel (channel.calls + 1) 1 = none

section

variable {kernel : Kernel} {malloc : CString.Malloc} {child : Option State} {value : CString}
  {channel : Channel}

inductive Written (kernel : Kernel) (child : Option State) (value : CString)
    (channel : Channel) : Option Int → Channel → Prop
  | refused {after : Channel} (hrefused : child.bind State.stdinWrite = none ∨
        kernel channel.calls value.strlen = none)
      (hdelivered : after.delivered = channel.delivered)
      (hread : after.readAt = channel.readAt) : Written kernel child value channel none after
  | unended {after : Channel} {taken : Nat} (htaken : taken ≤ value.strlen)
      (hnewline : kernel (channel.calls + if 0 < value.strlen then 1 else 0) 1 = none)
      (hdelivered : after.delivered = channel.delivered ++ value.bytes.take taken)
      (hread : after.readAt = channel.readAt) : Written kernel child value channel none after
  | ended {after : Channel} {taken : Nat} (hopen : (child.bind State.stdinWrite).isSome)
      (htaken : taken ≤ value.strlen)
      (hkernel : 0 < value.strlen → kernel channel.calls value.strlen = some taken)
      (hnewline : kernel (channel.calls + if 0 < value.strlen then 1 else 0) 1 = some 1)
      (hdelivered : after.delivered =
        channel.delivered ++ value.bytes.take taken ++ [newline])
      (hread : after.readAt = channel.readAt) :
      Written kernel child value channel (some (taken + 1)) after

theorem write_none {data : Text} (hanswer : kernel channel.calls data.length = none) :
    write kernel data channel = (-1, { channel with calls := channel.calls + 1 }) := by
  rw [write, hanswer]

theorem write_some {data : Text} {taken : Nat}
    (hanswer : kernel channel.calls data.length = some taken) :
    write kernel data channel = ((taken : Int), { channel with
      calls := channel.calls + 1
      delivered := channel.delivered ++ data.take taken }) := by
  rw [write, hanswer]

/-- The newline, behind whatever was taken of the text. -/
theorem newline_cases (hlawful : kernel.Lawful) (value : CString) (start channel : Channel)
    (taken : Nat) (hopen : (child.bind State.stdinWrite).isSome) (htaken : taken ≤ value.strlen)
    (hanswer : 0 < value.strlen → kernel start.calls value.strlen = some taken)
    (hcalls : channel.calls = start.calls + if 0 < value.strlen then 1 else 0)
    (hdelivered : channel.delivered = start.delivered ++ value.bytes.take taken)
    (hread : channel.readAt = start.readAt) :
    ∃ newlineWritten after, write kernel [newline] channel = (newlineWritten, after) ∧
      (newlineWritten < 0 → Written kernel child value start none after) ∧
      (¬ newlineWritten < 0 → newlineWritten = 1 ∧
        Written kernel child value start (some (taken + 1)) after) := by
  cases hkernel : kernel channel.calls [newline].length with
  | none =>
      refine ⟨_, _, write_none hkernel, fun _ => ?_, fun hnot => absurd (by decide) hnot⟩
      exact .unended htaken (by rw [← hcalls]; exact hkernel) hdelivered hread
  | some one =>
      have hone : one = 1 := by
        have hbounds := hlawful _ _ _ (by decide) hkernel
        rw [List.length_singleton] at hbounds
        omega
      subst hone
      refine ⟨_, _, write_some hkernel, fun hneg => absurd hneg (by decide), fun _ => ⟨rfl, ?_⟩⟩
      refine .ended hopen htaken hanswer (by rw [← hcalls]; exact hkernel) ?_ hread
      rw [hdelivered]
      rfl

theorem stdinWriteLine_cases (hlawful : kernel.Lawful) (child : Option State) (value : CString)
    (channel : Channel) :
    Written kernel child value channel (stdinWriteLine kernel child (some value) channel).1
      (stdinWriteLine kernel child (some value) channel).2 := by
  cases hopen : child.bind State.stdinWrite with
  | none =>
      simp only [stdinWriteLine, nativeStdinWriteLine, hopen, Option.map_some]
      exact .refused (Or.inl hopen) rfl rfl
  | some fd =>
      have hsome : (child.bind State.stdinWrite).isSome := by
        rw [hopen]
        rfl
      simp only [stdinWriteLine, nativeStdinWriteLine, hopen, Option.map_some]
      by_cases hpos : 0 < value.strlen
      · have hlength : 0 < value.bytes.length := hpos
        rw [if_pos hlength]
        cases hanswer : kernel channel.calls value.bytes.length with
        | none =>
            rw [write_none hanswer]
            exact .refused (Or.inr hanswer) rfl rfl
        | some taken =>
            rw [write_some hanswer]
            obtain ⟨newlineWritten, after, hwrite, hfailed, hdone⟩ := newline_cases hlawful value
              channel { channel with
                calls := channel.calls + 1
                delivered := channel.delivered ++ value.bytes.take taken } taken
              hsome (hlawful _ _ _ hpos hanswer).2 (fun _ => hanswer) (by rw [if_pos hpos]) rfl rfl
            rw [hwrite]
            dsimp only
            rw [if_neg (show ¬ (taken : Int) < 0 by omega)]
            by_cases hneg : newlineWritten < 0
            · rw [if_pos hneg]
              exact hfailed hneg
            · rw [if_neg hneg]
              obtain ⟨rfl, hwritten⟩ := hdone hneg
              rw [if_pos (show (0 : Int) ≤ taken + 1 by omega)]
              exact hwritten
      · have hlength : ¬ 0 < value.bytes.length := hpos
        rw [if_neg hlength]
        obtain ⟨newlineWritten, after, hwrite, hfailed, hdone⟩ := newline_cases hlawful value
          channel channel 0 hsome (Nat.zero_le _)
          (fun hpos' => absurd hpos' hpos) (by rw [if_neg hpos]; rfl) (by simp) rfl
        rw [hwrite]
        dsimp only
        rw [if_neg (show ¬ (0 : Int) < 0 by decide)]
        by_cases hneg : newlineWritten < 0
        · rw [if_pos hneg]
          exact hfailed hneg
        · rw [if_neg hneg]
          obtain ⟨rfl, hwritten⟩ := hdone hneg
          exact hwritten

theorem take_prefix_line (value : CString) (taken : Nat) :
    value.bytes.take taken <+: wholeLine value :=
  (List.take_prefix _ _).trans (List.prefix_append _ _)

theorem lineWhole_iff (hlawful : kernel.Lawful) (child : Option State) (value : CString)
    (channel : Channel) :
    LineWhole kernel child value channel ↔ NotSplit kernel child value channel := by
  have hcases := stdinWriteLine_cases hlawful child value channel
  constructor
  · intro hwhole hopen taken hanswer hsplit
    have hpos : 0 < value.strlen := by omega
    have hok := hwhole.ok
    generalize (stdinWriteLine kernel child (some value) channel).1 = result at hcases hok
    generalize (stdinWriteLine kernel child (some value) channel).2 = after at hcases hok
    cases hcases with
    | refused hrefused _ _ =>
        obtain hclosed | hnone := hrefused
        · rw [hclosed] at hopen
          cases hopen
        · rw [hanswer] at hnone
          cases hnone
    | unended _ hnewline _ _ =>
        rw [if_pos hpos] at hnewline
        exact hnewline
    | ended _ _ hkernel _ _ _ =>
        rw [hkernel hpos] at hanswer
        obtain rfl := Option.some.inj hanswer
        have hcount := (hok _ rfl).2
        omega
  · intro hnotSplit
    generalize hresult : (stdinWriteLine kernel child (some value) channel).1 = result at hcases
    generalize hafter : (stdinWriteLine kernel child (some value) channel).2 = after at hcases
    cases hcases with
    | refused _ hdelivered _ =>
        refine ⟨fun count hcount => ?_, [], ?_, List.nil_prefix⟩
        · rw [hresult] at hcount
          cases hcount
        · rw [hafter, hdelivered, List.append_nil]
    | @unended _ taken _ _ hdelivered _ =>
        refine ⟨fun count hcount => ?_, _, ?_, take_prefix_line value taken⟩
        · rw [hresult] at hcount
          cases hcount
        · rw [hafter, hdelivered]
    | @ended _ taken hopen htaken hkernel hnewline hdelivered _ =>
        have hall : taken = value.strlen := by
          by_contra hpartial
          have hpos : 0 < value.strlen := by omega
          rw [if_pos hpos, hnotSplit hopen taken (hkernel hpos) (by omega)] at hnewline
          cases hnewline
        have htake : value.bytes.take taken = value.bytes := by
          rw [hall]
          exact List.take_of_length_le (Nat.le_refl _)
        rw [htake, List.append_assoc] at hdelivered
        refine ⟨fun count hcount => ?_, wholeLine value, ?_, List.prefix_refl _⟩
        · rw [hresult] at hcount
          obtain rfl := Option.some.inj hcount
          rw [hafter, hdelivered, hall]
          exact ⟨rfl, rfl⟩
        · rw [hafter, hdelivered]
          rfl

theorem requestWhole (hlawful : kernel.Lawful) (malloc : CString.Malloc) (child : Option State)
    (value : CString) (maxBytes : Int) (channel : Channel) :
    RequestWhole kernel malloc child value maxBytes channel := by
  have hcases := stdinWriteLine_cases hlawful child value channel
  unfold RequestWhole requestLine
  generalize stdinWriteLine kernel child (some value) channel = run at hcases
  obtain ⟨result, after⟩ := run
  dsimp only at hcases ⊢
  cases hcases with
  | refused _ _ hread => exact ⟨[], by rw [hread, List.append_nil], by simp⟩
  | unended _ _ _ hread => exact ⟨[], by rw [hread, List.append_nil], by simp⟩
  | @ended _ taken _ htaken _ _ hdelivered hread =>
      dsimp only
      by_cases hfull : (taken : Int) + 1 = value.strlen + 1
      · rw [if_pos hfull]
        refine ⟨[after.delivered], by rw [hread], fun delivered hmem => ?_⟩
        have htake : value.bytes.take taken = value.bytes :=
          List.take_of_length_le (show value.strlen ≤ taken by omega)
        rw [List.mem_singleton.mp hmem, hdelivered, htake, List.append_assoc]
        rfl
      · rw [if_neg hfull]
        exact ⟨[], by rw [hread, List.append_nil], by simp⟩

/-- The loop goes on until all bytes are taken, or a call fails. -/
theorem sendFrom_spec (hlawful : kernel.Lawful) {data start : Text} {turns total : Nat}
    {channel : Channel} (htotal : total ≤ data.length) (hturns : data.length < total + turns)
    (hdelivered : channel.delivered = start ++ data.take total) :
    ∃ result after, sendFrom kernel data turns total channel = some (result, after) ∧
      ∀ count, result = some count → after.delivered = start ++ data ∧ count = data.length := by
  induction turns generalizing total channel with
  | zero => omega
  | succ turns ih =>
      rw [sendFrom]
      by_cases hdone : data.length - total = 0
      · rw [if_pos hdone]
        refine ⟨_, _, rfl, fun count hcount => ?_⟩
        obtain rfl := Option.some.inj hcount
        rw [hdelivered, List.take_of_length_le (by omega)]
        exact ⟨rfl, by omega⟩
      · rw [if_neg hdone]
        cases hanswer : kernel channel.calls (data.drop total).length with
        | none =>
            rw [write_none hanswer]
            exact ⟨none, _, rfl, fun count hcount => by cases hcount⟩
        | some taken =>
            have hbounds := hlawful _ _ _ (by rw [List.length_drop]; omega) hanswer
            rw [List.length_drop] at hbounds
            rw [write_some hanswer]
            dsimp only
            rw [if_pos (by omega), Int.toNat_natCast]
            refine ih (by omega) (by omega) ?_
            dsimp only
            rw [hdelivered, List.append_assoc, List.take_add]

theorem sendWhole (hlawful : kernel.Lawful) (data : CString) (channel : Channel) :
    SendWhole kernel data channel :=
  sendFrom_spec hlawful (Nat.zero_le _) (by rw [Nat.zero_add]; exact Nat.lt_succ_self _)
    (by rw [List.take_zero, List.append_nil])

end

/-- All four hold just when no text is taken in part with the newline behind it; only the first
one depends on that. -/
theorem writes_whole_iff (kernel : Kernel) (hlawful : kernel.Lawful) (malloc : CString.Malloc)
    (child : Option State) (value : CString) (maxBytes : Int) (channel : Channel) :
    (LineWhole kernel child value channel ∧
      RequestWhole kernel malloc child value maxBytes channel ∧ SendWhole kernel value channel) ↔
        NotSplit kernel child value channel := by
  rw [← lineWhole_iff hlawful]
  exact ⟨And.left, fun hwhole => ⟨hwhole, requestWhole hlawful malloc child value maxBytes channel,
    sendWhole hlawful value channel⟩⟩

/-- A child of which only the input is open. -/
def writingState : State := ⟨0, some 0, none, none, false, 0⟩

/-- A kernel that takes all that is offered. -/
def takesAll : Kernel := fun _ offered => some offered

def takesOne : Kernel := fun _ offered => some (min offered 1)

theorem takesAll_lawful : takesAll.Lawful := by
  intro call offered taken hpos htaken
  obtain rfl := Option.some.inj htaken
  exact ⟨hpos, Nat.le_refl _⟩

theorem takesOne_lawful : takesOne.Lawful := by
  intro call offered taken hpos htaken
  obtain rfl := Option.some.inj htaken
  omega

/-- The text `ok` with a kernel that takes it at once. -/
theorem writes_whole_at_once :
    LineWhole takesAll (some writingState) ⟨[111, 107], by simp⟩ ⟨0, [], [], []⟩ ∧
      RequestWhole takesAll (fun _ => true) (some writingState) ⟨[111, 107], by simp⟩ 8
        ⟨0, [], [], []⟩ ∧
      SendWhole takesAll ⟨[111, 107], by simp⟩ ⟨0, [], [], []⟩ :=
  (writes_whole_iff takesAll takesAll_lawful (fun _ => true) (some writingState)
    ⟨[111, 107], by simp⟩ 8 ⟨0, [], [], []⟩).mpr fun _ taken htaken hlt => by
      obtain rfl := Option.some.inj htaken
      exact absurd hlt (Nat.lt_irrefl _)

/-- Of the text `ok` one byte is taken, and ok is returned. -/
theorem split_text_reported_ok :
    ¬ (∀ (kernel : Kernel) (child : Option State) (value : CString) (channel : Channel),
      kernel.Lawful → LineWhole kernel child value channel) ∧
    stdinWriteLine takesOne (some writingState) (some ⟨[111, 107], by simp⟩) ⟨0, [], [], []⟩ =
      (some 2, ⟨2, [111, 10], [], []⟩) := by
  have hrun : stdinWriteLine takesOne (some writingState) (some ⟨[111, 107], by simp⟩)
      ⟨0, [], [], []⟩ = (some 2, ⟨2, [111, 10], [], []⟩) := by decide
  refine ⟨fun hall => ?_, hrun⟩
  have hok := (hall takesOne (some writingState) ⟨[111, 107], by simp⟩ ⟨0, [], [], []⟩
    takesOne_lawful).ok 2 (by rw [hrun])
  exact absurd hok.2 (by decide)

end Ipc

end Cnegative
