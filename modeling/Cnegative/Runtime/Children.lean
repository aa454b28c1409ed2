import Cnegative.Runtime.Ipc
import Mathlib.Tactic

namespace Cnegative

namespace Ipc

/-! What the kernel may be asked at a point of the trace. -/

def IsOpen (trace : List Event) (fd : Fd) : Prop :=
  .opened fd ∈ trace ∧ .closed fd ∉ trace

/-- The event fits what came before it. -/
def Admits (trace : List Event) : Event → Prop
  | .opened fd => .opened fd ∉ trace
  | .closed fd => IsOpen trace fd
  | .used fd => IsOpen trace fd
  | .forked pid => .forked pid ∉ trace
  | .reaped pid => .forked pid ∈ trace ∧ .reaped pid ∉ trace
  | .signalled pid => .reaped pid ∉ trace
  | .exitCode pid code => .reaped pid ∈ trace ∧ ∀ other, .exitCode pid other ∈ trace → other = code

def Lawful (trace : List Event) : Prop :=
  ∀ before event after, trace = before ++ event :: after → Admits before event

theorem Lawful.nil : Lawful [] := by
  intro before event after hsplit
  simp at hsplit

theorem Lawful.append {trace : List Event} {event : Event} (hlawful : Lawful trace)
    (hadmits : Admits trace event) : Lawful (trace ++ [event]) := by
  intro before other after hsplit
  cases after using List.reverseRecOn with
  | nil =>
      obtain ⟨rfl, hsame⟩ := List.append_inj' hsplit rfl
      cases hsame
      exact hadmits
  | append_singleton after last =>
      have hfront : trace = before ++ other :: after := by
        have hdrop := congrArg List.dropLast hsplit
        rw [List.dropLast_concat, ← List.cons_append, ← List.append_assoc,
          List.dropLast_concat] at hdrop
        exact hdrop
      exact hlawful before other after hfront

theorem Lawful.forked_of_reaped {trace : List Event} (hlawful : Lawful trace) {pid : Pid}
    (hmem : .reaped pid ∈ trace) : .forked pid ∈ trace := by
  obtain ⟨before, after, rfl⟩ := List.append_of_mem hmem
  have hadmits : Admits before (.reaped pid) := hlawful before _ after rfl
  exact List.mem_append_left _ hadmits.1

theorem Lawful.reaped_of_exitCode {trace : List Event} (hlawful : Lawful trace) {pid : Pid}
    {code : Int} (hmem : .exitCode pid code ∈ trace) : .reaped pid ∈ trace := by
  obtain ⟨before, after, rfl⟩ := List.append_of_mem hmem
  have hadmits : Admits before (.exitCode pid code) := hlawful before _ after rfl
  exact List.mem_append_left _ hadmits.1

/-- The trace is lawful, and just the descriptors of `held` are open. -/
structure Keeps (world : World) (held : Fd → Prop) : Prop where
  lawful : Lawful world.trace
  open_iff : ∀ fd, IsOpen world.trace fd ↔ held fd
  opened_lt : ∀ fd, .opened fd ∈ world.trace → fd < world.nextFd
  forked_lt : ∀ pid, .forked pid ∈ world.trace → pid < world.nextPid

namespace Keeps

variable {world : World} {held : Fd → Prop}

theorem congr {other : Fd → Prop} (hkeeps : Keeps world held)
    (hsame : ∀ fd, held fd ↔ other fd) : Keeps world other where
  lawful := hkeeps.lawful
  open_iff fd := (hkeeps.open_iff fd).trans (hsame fd)
  opened_lt := hkeeps.opened_lt
  forked_lt := hkeeps.forked_lt

theorem held_lt (hkeeps : Keeps world held) {fd : Fd} (hheld : held fd) : fd < world.nextFd :=
  hkeeps.opened_lt fd ((hkeeps.open_iff fd).mpr hheld).1

theorem used (hkeeps : Keeps world held) {fd : Fd} (hheld : held fd) :
    Keeps (world.emit (.used fd)) held where
  lawful := hkeeps.lawful.append ((hkeeps.open_iff fd).mpr hheld)
  open_iff other := by
    rw [← hkeeps.open_iff other]
    simp [World.emit, IsOpen]
  opened_lt other hopened := hkeeps.opened_lt other (by simpa [World.emit] using hopened)
  forked_lt pid hforked := hkeeps.forked_lt pid (by simpa [World.emit] using hforked)

theorem close (hkeeps : Keeps world held) {fd : Fd} (hheld : held fd) :
    Keeps (world.emit (.closed fd)) fun other => held other ∧ other ≠ fd where
  lawful := hkeeps.lawful.append ((hkeeps.open_iff fd).mpr hheld)
  open_iff other := by
    rw [← hkeeps.open_iff other]
    simp only [World.emit, IsOpen, List.mem_append, List.mem_singleton, reduceCtorEq, or_false,
      Event.closed.injEq, not_or]
    exact and_assoc.symm
  opened_lt other hopened := hkeeps.opened_lt other (by simpa [World.emit] using hopened)
  forked_lt pid hforked := hkeeps.forked_lt pid (by simpa [World.emit] using hforked)

theorem process (hkeeps : Keeps world held) {event : Event} (hadmits : Admits world.trace event)
    (hopened : ∀ fd, event ≠ .opened fd) (hclosed : ∀ fd, event ≠ .closed fd)
    (hforked : ∀ pid, event ≠ .forked pid) : Keeps (world.emit event) held where
  lawful := hkeeps.lawful.append hadmits
  open_iff other := by
    rw [← hkeeps.open_iff other]
    simp [World.emit, IsOpen, (hopened other).symm, (hclosed other).symm]
  opened_lt other hmem :=
    hkeeps.opened_lt other (by simpa [World.emit, (hopened other).symm] using hmem)
  forked_lt pid hmem :=
    hkeeps.forked_lt pid (by simpa [World.emit, (hforked pid).symm] using hmem)

/-- One more descriptor, of the next number. -/
theorem opened (hkeeps : Keeps world held) :
    Keeps { world with
      nextFd := world.nextFd + 1
      trace := world.trace ++ [.opened world.nextFd] }
      fun fd => held fd ∨ fd = world.nextFd where
  lawful := hkeeps.lawful.append fun hmem => Nat.lt_irrefl _ (hkeeps.opened_lt _ hmem)
  open_iff fd := by
    rw [← hkeeps.open_iff fd]
    have hfresh : ∀ trace, trace = world.trace → fd = world.nextFd → Event.closed fd ∉ trace := by
      rintro trace rfl rfl hclosed
      obtain ⟨before, after, hsplit⟩ := List.append_of_mem hclosed
      have hopen : IsOpen before world.nextFd := hkeeps.lawful before _ after hsplit
      exact Nat.lt_irrefl _ (hkeeps.opened_lt _ (by rw [hsplit]; simp [hopen.1]))
    constructor
    · rintro ⟨hopened, hclosed⟩
      simp only [List.mem_append, List.mem_singleton, Event.opened.injEq, reduceCtorEq,
        or_false] at hopened hclosed
      rcases hopened with hopened | rfl
      · exact Or.inl ⟨hopened, hclosed⟩
      · exact Or.inr rfl
    · rintro (⟨hopened, hclosed⟩ | hsame)
      · exact ⟨by simp [hopened], by simpa using hclosed⟩
      · exact ⟨by simp [hsame], by simpa using hfresh _ rfl hsame⟩
  opened_lt fd hmem := by
    simp only [List.mem_append, List.mem_singleton, Event.opened.injEq] at hmem
    change fd < world.nextFd + 1
    rcases hmem with hmem | rfl
    · exact Nat.lt_succ_of_lt (hkeeps.opened_lt fd hmem)
    · exact Nat.lt_succ_self _
  forked_lt pid hmem := hkeeps.forked_lt pid (by simpa using hmem)

theorem openPipe (hkeeps : Keeps world held) :
    Keeps (Ipc.openPipe true world).2
      fun fd => (held fd ∨ fd = world.nextFd) ∨ fd = world.nextFd + 1 := by
  have htwice := hkeeps.opened.opened
  simpa [Ipc.openPipe] using htwice

theorem fork (hkeeps : Keeps world held) : Keeps (Ipc.fork true world).2 held where
  lawful := hkeeps.lawful.append fun hmem => Nat.lt_irrefl _ (hkeeps.forked_lt _ hmem)
  open_iff fd := by
    rw [← hkeeps.open_iff fd]
    simp [Ipc.fork, IsOpen]
  opened_lt fd hmem := hkeeps.opened_lt fd (by simpa [Ipc.fork] using hmem)
  forked_lt pid hmem := by
    simp only [Ipc.fork, if_true, List.mem_append, List.mem_singleton, Event.forked.injEq] at hmem
    change pid < world.nextPid + 1
    rcases hmem with hmem | rfl
    · exact Nat.lt_succ_of_lt (hkeeps.forked_lt pid hmem)
    · exact Nat.lt_succ_self _

end Keeps

/-! The descriptors and processes of the children. -/

def State.fds (state : State) : List Fd :=
  [state.stdinWrite, state.stdoutRead, state.stderrRead].filterMap id

def System.Holds (system : System) (child : Nat) (fd : Fd) : Prop :=
  ∃ state, system.child child = some state ∧ fd ∈ state.fds

def System.HasOpen (system : System) (fd : Fd) : Prop :=
  ∃ child, system.Holds child fd

structure Tracked (system : System) : Prop where
  keeps : Keeps system.world system.HasOpen
  owner : ∀ i j fd, system.Holds i fd → system.Holds j fd → i = j
  nodup : ∀ i state, system.child i = some state → state.fds.Nodup
  forked : ∀ i state, system.child i = some state → .forked state.pid ∈ system.world.trace
  pidOwner : ∀ i j state other, system.child i = some state → system.child j = some other →
    state.pid = other.pid → i = j
  waited_iff : ∀ i state, system.child i = some state →
    (state.waited = true ↔ .reaped state.pid ∈ system.world.trace)
  code : ∀ i state code, system.child i = some state →
    .exitCode state.pid code ∈ system.world.trace → state.waited = true ∧ code = state.exitCode
  released_forked : ∀ pid ∈ system.released, .forked pid ∈ system.world.trace
  released_ne : ∀ i state, system.child i = some state → state.pid ∉ system.released
  process : ∀ pid, .forked pid ∈ system.world.trace → .reaped pid ∉ system.world.trace →
    (∃ i state, system.child i = some state ∧ state.pid = pid) ∨ pid ∈ system.released

structure SameProcesses (before after : World) : Prop where
  forked : ∀ pid, .forked pid ∈ after.trace ↔ .forked pid ∈ before.trace
  reaped : ∀ pid, .reaped pid ∈ after.trace ↔ .reaped pid ∈ before.trace
  exitCode : ∀ pid code, .exitCode pid code ∈ after.trace ↔ .exitCode pid code ∈ before.trace

theorem SameProcesses.refl (world : World) : SameProcesses world world :=
  ⟨fun _ => Iff.rfl, fun _ => Iff.rfl, fun _ _ => Iff.rfl⟩

theorem SameProcesses.trans {first second third : World} (hfirst : SameProcesses first second)
    (hsecond : SameProcesses second third) : SameProcesses first third :=
  ⟨fun pid => (hsecond.forked pid).trans (hfirst.forked pid),
    fun pid => (hsecond.reaped pid).trans (hfirst.reaped pid),
    fun pid code => (hsecond.exitCode pid code).trans (hfirst.exitCode pid code)⟩

theorem SameProcesses.emit {world : World} {event : Event}
    (hforked : ∀ pid, event ≠ .forked pid) (hreaped : ∀ pid, event ≠ .reaped pid)
    (hcode : ∀ pid code, event ≠ .exitCode pid code) : SameProcesses world (world.emit event) where
  forked pid := by simp [World.emit, (hforked pid).symm]
  reaped pid := by simp [World.emit, (hreaped pid).symm]
  exitCode pid code := by simp [World.emit, (hcode pid code).symm]

theorem SameProcesses.used (world : World) (fd : Fd) : SameProcesses world (world.emit (.used fd)) :=
  .emit (by simp) (by simp) (by simp)

theorem SameProcesses.closed (world : World) (fd : Fd) :
    SameProcesses world (world.emit (.closed fd)) :=
  .emit (by simp) (by simp) (by simp)

theorem SameProcesses.openPipe (world : World) : SameProcesses world (openPipe true world).2 where
  forked pid := by simp [Ipc.openPipe]
  reaped pid := by simp [Ipc.openPipe]
  exitCode pid code := by simp [Ipc.openPipe]

namespace Tracked

variable {system : System}

theorem init : Tracked System.init where
  keeps :=
    { lawful := Lawful.nil
      open_iff := by
        intro fd
        simp [System.init, IsOpen, System.HasOpen, System.Holds, System.child]
      opened_lt := by simp [System.init]
      forked_lt := by simp [System.init] }
  owner i j fd hleft := by simp [System.Holds, System.child, System.init] at hleft
  nodup i state hchild := by simp [System.child, System.init] at hchild
  forked i state hchild := by simp [System.child, System.init] at hchild
  pidOwner i j state other hchild := by simp [System.child, System.init] at hchild
  waited_iff i state hchild := by simp [System.child, System.init] at hchild
  code i state code hchild := by simp [System.child, System.init] at hchild
  released_forked pid hmem := by simp [System.init] at hmem
  released_ne i state hchild := by simp [System.child, System.init] at hchild
  process pid hforked := by simp [System.init] at hforked

theorem of_world (htracked : Tracked system) {world : World}
    (hkeeps : Keeps world system.HasOpen) (hsame : SameProcesses system.world world) :
    Tracked { system with world := world } where
  keeps := hkeeps
  owner := htracked.owner
  nodup := htracked.nodup
  forked i state hchild := (hsame.forked _).mpr (htracked.forked i state hchild)
  pidOwner := htracked.pidOwner
  waited_iff i state hchild := (htracked.waited_iff i state hchild).trans (hsame.reaped _).symm
  code i state code hchild hmem :=
    htracked.code i state code hchild ((hsame.exitCode _ _).mp hmem)
  released_forked pid hmem := (hsame.forked pid).mpr (htracked.released_forked pid hmem)
  released_ne := htracked.released_ne
  process pid hforked hreaped := htracked.process pid ((hsame.forked pid).mp hforked)
    fun hbefore => hreaped ((hsame.reaped pid).mpr hbefore)

end Tracked

/-- A call that only uses one descriptor. -/
inductive Uses (fd : Fd) : World → World → Prop where
  | done (world : World) : Uses fd world world
  | used {before after : World} (hrest : Uses fd (before.emit (.used fd)) after) :
      Uses fd before after

theorem Uses.spec {fd : Fd} {before after : World} (huses : Uses fd before after)
    {held : Fd → Prop} (hkeeps : Keeps before held) (hheld : held fd) :
    Keeps after held ∧ SameProcesses before after := by
  induction huses with
  | done world => exact ⟨hkeeps, .refl world⟩
  | used hrest ih =>
      obtain ⟨hafter, hsame⟩ := ih (hkeeps.used hheld)
      exact ⟨hafter, (SameProcesses.used _ fd).trans hsame⟩

theorem Uses.once (fd : Fd) (world : World) : Uses fd world (world.emit (.used fd)) :=
  .used (.done _)

theorem Uses.trans {fd : Fd} {first second third : World} (hfirst : Uses fd first second)
    (hsecond : Uses fd second third) : Uses fd first third := by
  induction hfirst with
  | done world => exact hsecond
  | used hrest ih => exact .used (ih hsecond)

theorem uses_answeredRead (fd : Fd) (state : World × List ByteAnswer) :
    Uses fd state.1 (answeredRead fd state).2.1 := by
  obtain ⟨world, answers⟩ := state
  cases answers <;> exact .once fd world

theorem uses_answeredWrite (fd : Fd) (data : List UInt8) (state : World × List Int) :
    Uses fd state.1 (answeredWrite fd data state).2.1 := by
  obtain ⟨world, answers⟩ := state
  cases answers <;> exact .once fd world

theorem uses_readLineLoop (fd : Fd) (room : Nat) :
    ∀ buffer found state,
      Uses fd state.1 (readLineLoop answeredRead fd room buffer found state).2.1 := by
  induction room with
  | zero => exact fun _ _ state => .done state.1
  | succ room ih =>
      intro buffer found state
      rw [readLineLoop]
      have huses := uses_answeredRead fd state
      cases hread : answeredRead fd state with
      | mk answer after =>
          rw [hread] at huses
          cases answer with
          | finished | failed => exact huses
          | byte ch =>
              dsimp only
              split
              · exact huses
              · exact huses.trans (ih _ _ after)

/-- The calls that write to or read from a slot of a child, if it is open. -/
def UsesSlot (slot : Option Fd) (before after : World) : Prop :=
  after = before ∨ ∃ fd, slot = some fd ∧ Uses fd before after

theorem usesSlot_stdinWrite (state : State) (length : Nat) (written : Int) (world : World) :
    UsesSlot state.stdinWrite world (nativeStdinWrite state length written world).2 := by
  unfold nativeStdinWrite
  cases hslot : state.stdinWrite with
  | none => exact Or.inl rfl
  | some fd =>
      dsimp only
      split
      · exact Or.inl rfl
      · exact Or.inr ⟨fd, rfl, .once fd world⟩

theorem usesSlot_stdinWriteLine (state : State) (value : List UInt8) (answers : List Int)
    (world : World) : UsesSlot state.stdinWrite world
      (answering (nativeStdinWriteLine answeredWrite (some state) (some value)) answers
        world).2 := by
  unfold answering nativeStdinWriteLine
  rw [Option.bind_some]
  cases hslot : state.stdinWrite with
  | none => exact Or.inl rfl
  | some fd =>
      refine Or.inr ⟨fd, rfl, ?_⟩
      have hwritten : Uses fd world (if 0 < value.length
          then answeredWrite fd value (world, answers) else (0, world, answers)).2.1 := by
        split
        · exact uses_answeredWrite fd value (world, answers)
        · exact .done world
      dsimp only
      generalize (if 0 < value.length then answeredWrite fd value (world, answers)
        else (0, world, answers)) = first at hwritten
      obtain ⟨written, after⟩ := first
      dsimp only
      split
      · exact hwritten
      · have hnewline := hwritten.trans (uses_answeredWrite fd [newline] after)
        split <;> exact hnewline

theorem usesSlot_readFd (slot : Option Fd) (maxBytes : Int) (alloc : Bool) (bytes : List UInt8)
    (world : World) : UsesSlot slot world (readFd slot maxBytes alloc bytes world).2 := by
  unfold readFd
  cases slot with
  | none => exact Or.inl rfl
  | some fd =>
      dsimp only
      split
      · exact Or.inl rfl
      · exact Or.inr ⟨fd, rfl, .once fd world⟩

theorem usesSlot_readLineFd (slot : Option Fd) (maxBytes : Int) (alloc : Bool)
    (answers : List ByteAnswer) (world : World) :
    UsesSlot slot world
      (answering (readLineFd answeredRead slot maxBytes alloc) answers world).2 := by
  unfold answering readLineFd
  cases slot with
  | none => exact Or.inl rfl
  | some fd =>
      dsimp only
      split
      · exact Or.inl rfl
      · refine Or.inr ⟨fd, rfl, ?_⟩
        have huses := uses_readLineLoop fd maxBytes.toNat [] false (world, answers)
        cases hloop : readLineLoop answeredRead fd maxBytes.toNat [] false (world, answers) with
        | mk result after =>
            rw [hloop] at huses
            cases result with
            | none => exact huses
            | some found =>
                dsimp only
                split <;> exact huses

theorem tracked_call {α : Type} {system : System} {run : Call α} {child : Nat} {state : State}
    {slot : Option Fd} (htracked : Tracked system) (hchild : system.child child = some state)
    (hslot : ∀ fd, slot = some fd → fd ∈ state.fds)
    (huses : UsesSlot slot system.world (run system.world).2) : Tracked (system.call run) := by
  rcases huses with hsame | ⟨fd, hfd, huses⟩
  · have hworld : system.call run = { system with world := system.world } := by
      rw [System.call, hsame]
    rw [hworld]
    exact htracked
  · obtain ⟨hkeeps, hsame⟩ := huses.spec htracked.keeps ⟨child, state, hchild, hslot fd hfd⟩
    exact htracked.of_world hkeeps hsame

theorem mem_fds {state : State} {fd : Fd} : fd ∈ state.fds ↔
    state.stdinWrite = some fd ∨ state.stdoutRead = some fd ∨ state.stderrRead = some fd := by
  simp [State.fds, eq_comm]

section Children

variable {system : System} {child : Nat} {state : State}

theorem child_set (hchild : system.child child = some state) (world : World)
    (value : Option State) (released : List Pid) (other : Nat) :
    System.child ⟨world, system.children.set child value, released⟩ other =
      if other = child then value else system.child other := by
  have hlt : child < system.children.length := by
    by_contra hout
    rw [System.child, List.getElem?_eq_none (Nat.le_of_not_lt hout)] at hchild
    cases hchild
  by_cases hother : other = child
  · subst hother
    simp [System.child, hlt]
  · rw [if_neg hother, System.child, List.getElem?_set_ne (Ne.symm hother), System.child]

theorem child_append (system : System) (world : World) (state : State) (other : Nat) :
    System.child { system with world := world, children := system.children ++ [some state] }
        other = if other = system.children.length then some state else system.child other := by
  by_cases hother : other = system.children.length
  · subst hother
    simp [System.child]
  · rw [if_neg hother]
    by_cases hlt : other < system.children.length
    · simp [System.child, List.getElem?_append_left hlt]
    · have hout : system.children.length + 1 ≤ other := by omega
      rw [System.child, System.child, List.getElem?_eq_none (by simpa using hout),
        List.getElem?_eq_none (by omega)]

/-- What a call on a child may change of it. -/
structure Updates (before after : World) (state updated : State) : Prop where
  pid_eq : updated.pid = state.pid
  fds : updated.fds.Sublist state.fds
  waited : state.waited = true → updated.waited = true ∧ updated.exitCode = state.exitCode
  forked : ∀ pid, .forked pid ∈ after.trace ↔ .forked pid ∈ before.trace
  reaped : ∀ pid, .reaped pid ∈ after.trace ↔
    .reaped pid ∈ before.trace ∨ (pid = state.pid ∧ updated.waited = true)
  exitCode : ∀ pid code, .exitCode pid code ∈ after.trace →
    .exitCode pid code ∈ before.trace ∨
      (pid = state.pid ∧ updated.waited = true ∧ code = updated.exitCode)

theorem Tracked.update (htracked : Tracked system) (hchild : system.child child = some state)
    {world : World} {updated : State} (hupdates : Updates system.world world state updated)
    (hkeeps : Keeps world fun fd => system.HasOpen fd ∧ (fd ∈ state.fds → fd ∈ updated.fds)) :
    Tracked { system with
      world := world, children := system.children.set child (some updated) } := by
  have hset := child_set hchild world (some updated) system.released
  have hcases : ∀ {i : Nat} {found : State}, System.child { system with
      world := world, children := system.children.set child (some updated) } i = some found →
      (i = child ∧ found = updated) ∨ (i ≠ child ∧ system.child i = some found) := by
    intro i found hfound
    rw [hset i] at hfound
    by_cases hi : i = child
    · rw [if_pos hi] at hfound
      exact Or.inl ⟨hi, (Option.some.inj hfound).symm⟩
    · rw [if_neg hi] at hfound
      exact Or.inr ⟨hi, hfound⟩
  have hholds : ∀ {i : Nat} {fd : Fd}, System.Holds { system with
      world := world, children := system.children.set child (some updated) } i fd →
      system.Holds i fd := by
    rintro i fd ⟨found, hfound, hfd⟩
    rcases hcases hfound with ⟨rfl, rfl⟩ | ⟨-, hold⟩
    · exact ⟨state, hchild, hupdates.fds.subset hfd⟩
    · exact ⟨found, hold, hfd⟩
  -- every child stands for the child of the same number before, with the same process
  have hpid : ∀ {i : Nat} {found : State}, System.child { system with
      world := world, children := system.children.set child (some updated) } i = some found →
      ∃ old, system.child i = some old ∧ found.pid = old.pid := by
    intro i found hfound
    rcases hcases hfound with ⟨rfl, rfl⟩ | ⟨-, hold⟩
    · exact ⟨state, hchild, hupdates.pid_eq⟩
    · exact ⟨found, hold, rfl⟩
  refine
    { keeps := hkeeps.congr fun fd => ?_
      owner := fun i j fd hi hj => htracked.owner i j fd (hholds hi) (hholds hj)
      nodup := fun i found hfound => ?_
      forked := fun i found hfound => ?_
      pidOwner := fun i j found other hi hj hsame => ?_
      waited_iff := fun i found hfound => ?_
      code := fun i found code hfound hmem => ?_
      released_forked := fun pid hmem =>
        (hupdates.forked pid).mpr (htracked.released_forked pid hmem)
      released_ne := fun i found hfound => ?_
      process := fun pid hforked hreaped => ?_ }
  · constructor
    · rintro ⟨⟨i, found, hfound, hfd⟩, hstays⟩
      by_cases hi : i = child
      · subst hi
        obtain rfl : state = found := Option.some.inj (hchild.symm.trans hfound)
        exact ⟨i, updated, by rw [hset, if_pos rfl], hstays hfd⟩
      · exact ⟨i, found, by rw [hset, if_neg hi]; exact hfound, hfd⟩
    · rintro ⟨i, hi⟩
      refine ⟨⟨i, hholds hi⟩, fun hfd => ?_⟩
      obtain rfl : i = child := htracked.owner i child fd (hholds hi) ⟨state, hchild, hfd⟩
      obtain ⟨found, hfound, hmem⟩ := hi
      rcases hcases hfound with ⟨-, rfl⟩ | ⟨hne, -⟩
      · exact hmem
      · exact absurd rfl hne
  · rcases hcases hfound with ⟨rfl, rfl⟩ | ⟨-, hold⟩
    · exact (htracked.nodup i state hchild).sublist hupdates.fds
    · exact htracked.nodup i found hold
  · obtain ⟨old, hold, hsame⟩ := hpid hfound
    rw [hsame]
    exact (hupdates.forked _).mpr (htracked.forked i old hold)
  · obtain ⟨first, hfirst, hfirstPid⟩ := hpid hi
    obtain ⟨second, hsecond, hsecondPid⟩ := hpid hj
    exact htracked.pidOwner i j first second hfirst hsecond
      (hfirstPid.symm.trans (hsame.trans hsecondPid))
  · change found.waited = true ↔ _ ∈ world.trace
    rw [hupdates.reaped]
    rcases hcases hfound with ⟨rfl, rfl⟩ | ⟨hne, hold⟩
    · rw [hupdates.pid_eq, ← htracked.waited_iff i state hchild]
      constructor
      · exact fun hwaited => Or.inr ⟨rfl, hwaited⟩
      · rintro (hwaited | ⟨-, hwaited⟩)
        · exact (hupdates.waited hwaited).1
        · exact hwaited
    · rw [htracked.waited_iff i found hold]
      constructor
      · exact Or.inl
      · rintro (hreaped | ⟨hsame, -⟩)
        · exact hreaped
        · exact absurd (htracked.pidOwner i child found state hold hchild hsame) hne
  · rcases hcases hfound with ⟨rfl, rfl⟩ | ⟨hne, hold⟩
    · rcases hupdates.exitCode _ code hmem with hbefore | ⟨-, hwaited, hsame⟩
      · rw [hupdates.pid_eq] at hbefore
        obtain ⟨hwaited, hsame⟩ := htracked.code i state code hchild hbefore
        obtain ⟨hstill, hcode⟩ := hupdates.waited hwaited
        exact ⟨hstill, hsame.trans hcode.symm⟩
      · exact ⟨hwaited, hsame⟩
    · rcases hupdates.exitCode _ code hmem with hbefore | ⟨hsame, -⟩
      · exact htracked.code i found code hold hbefore
      · exact absurd (htracked.pidOwner i child found state hold hchild hsame) hne
  · obtain ⟨old, hold, hsame⟩ := hpid hfound
    rw [hsame]
    exact htracked.released_ne i old hold
  · have hbefore : .reaped pid ∉ system.world.trace := fun hmem =>
      hreaped ((hupdates.reaped pid).mpr (Or.inl hmem))
    rcases htracked.process pid ((hupdates.forked pid).mp hforked) hbefore with
      ⟨i, old, hold, hsame⟩ | hreleased
    · by_cases hi : i = child
      · subst hi
        obtain rfl : state = old := Option.some.inj (hchild.symm.trans hold)
        exact Or.inl ⟨i, updated, by rw [hset, if_pos rfl], hupdates.pid_eq.trans hsame⟩
      · exact Or.inl ⟨i, old, by rw [hset, if_neg hi]; exact hold, hsame⟩
    · exact Or.inr hreleased

theorem tracked_stdinClose (htracked : Tracked system)
    (hchild : system.child child = some state) :
    Tracked { system with
      world := (nativeStdinClose state system.world).2
      children := system.children.set child
        (some (nativeStdinClose state system.world).1.2) } := by
  unfold nativeStdinClose
  cases hslot : state.stdinWrite with
  | none =>
      have hsame := SameProcesses.refl system.world
      exact htracked.update hchild
        { pid_eq := rfl
          fds := List.Sublist.refl _
          waited := fun hwaited => ⟨hwaited, rfl⟩
          forked := hsame.forked
          reaped := fun pid => by
            constructor
            · exact Or.inl
            · rintro (hmem | ⟨rfl, hwaited⟩)
              · exact hmem
              · exact (htracked.waited_iff child state hchild).mp hwaited
          exitCode := fun pid code => Or.inl }
        (htracked.keeps.congr fun fd => by simp)
  | some fd =>
      have hsame := SameProcesses.closed system.world fd
      have hheld : system.HasOpen fd := ⟨child, state, hchild, mem_fds.mpr (Or.inl hslot)⟩
      have hfds : state.fds = fd :: State.fds { state with stdinWrite := none } := by
        simp [State.fds, hslot]
      have hnodup := htracked.nodup child state hchild
      rw [hfds, List.nodup_cons] at hnodup
      refine htracked.update hchild
        { pid_eq := rfl
          fds := by
            rw [hfds]
            exact List.sublist_cons_self _ _
          waited := fun hwaited => ⟨hwaited, rfl⟩
          forked := hsame.forked
          reaped := fun pid => by
            rw [hsame.reaped]
            constructor
            · exact Or.inl
            · rintro (hmem | ⟨rfl, hwaited⟩)
              · exact hmem
              · exact (htracked.waited_iff child state hchild).mp hwaited
          exitCode := fun pid code hmem => Or.inl ((hsame.exitCode pid code).mp hmem) }
        ((htracked.keeps.close hheld).congr fun other => ?_)
      refine and_congr_right fun _ => ?_
      rw [hfds, List.mem_cons]
      constructor
      · rintro hne (hsame' | hmem)
        · exact absurd hsame' hne
        · exact hmem
      · rintro hstays rfl
        exact hnodup.1 (hstays (Or.inl rfl))

theorem tracked_wait (htracked : Tracked system) (hchild : system.child child = some state)
    (answer : Option Status) :
    Tracked { system with
      world := (nativeWait state answer system.world).2
      children := system.children.set child
        (some (nativeWait state answer system.world).1.2) } := by
  have hiff := htracked.waited_iff child state hchild
  unfold nativeWait
  by_cases hwaited : state.waited = true
  · rw [if_pos hwaited]
    have hadmits : Admits system.world.trace (.exitCode state.pid state.exitCode) :=
      ⟨hiff.mp hwaited, fun other hother => (htracked.code child state other hchild hother).2⟩
    refine htracked.update hchild
      { pid_eq := rfl
        fds := List.Sublist.refl _
        waited := fun hwaited => ⟨hwaited, rfl⟩
        forked := fun pid => by simp [World.emit]
        reaped := fun pid => by
          simp only [World.emit, List.mem_append, List.mem_singleton, reduceCtorEq, or_false]
          constructor
          · exact Or.inl
          · rintro (hmem | ⟨rfl, -⟩)
            · exact hmem
            · exact hiff.mp hwaited
        exitCode := fun pid code hmem => by
          simp only [World.emit, List.mem_append, List.mem_singleton, Event.exitCode.injEq] at hmem
          rcases hmem with hmem | ⟨rfl, rfl⟩
          · exact Or.inl hmem
          · exact Or.inr ⟨rfl, hwaited, rfl⟩ }
      ((htracked.keeps.process hadmits (by simp) (by simp) (by simp)).congr fun fd => by simp)
  · rw [if_neg hwaited]
    cases answer with
    | none =>
        exact htracked.update hchild
          { pid_eq := rfl
            fds := List.Sublist.refl _
            waited := fun hwaited => ⟨hwaited, rfl⟩
            forked := fun pid => Iff.rfl
            reaped := fun pid => by
              constructor
              · exact Or.inl
              · rintro (hmem | ⟨-, hnow⟩)
                · exact hmem
                · exact absurd hnow hwaited
            exitCode := fun pid code => Or.inl }
          (htracked.keeps.congr fun fd => by simp)
    | some status =>
        have hreap : Admits system.world.trace (.reaped state.pid) :=
          ⟨htracked.forked child state hchild, fun hmem => hwaited (hiff.mpr hmem)⟩
        have hcode : Admits (system.world.emit (.reaped state.pid)).trace
            (.exitCode state.pid status.exitCode) := by
          refine ⟨by simp [World.emit], fun other hother => ?_⟩
          have hbefore : .exitCode state.pid other ∈ system.world.trace := by
            simpa [World.emit] using hother
          exact absurd (htracked.code child state other hchild hbefore).1 hwaited
        refine htracked.update hchild
          { pid_eq := rfl
            fds := List.Sublist.refl _
            waited := fun hnow => absurd hnow hwaited
            forked := fun pid => by simp [World.emit]
            reaped := fun pid => by simp [World.emit]
            exitCode := fun pid code hmem => by
              simp only [World.emit, List.mem_append, List.mem_singleton, reduceCtorEq,
                or_false, Event.exitCode.injEq] at hmem
              rcases hmem with hmem | ⟨rfl, rfl⟩
              · exact Or.inl hmem
              · exact Or.inr ⟨rfl, rfl, rfl⟩ }
          (((htracked.keeps.process hreap (by simp) (by simp) (by simp)).process hcode (by simp)
            (by simp) (by simp)).congr fun fd => by simp [State.fds])

end Children

theorem Keeps.closeFd {world : World} {held : Fd → Prop} (hkeeps : Keeps world held)
    (slot : Option Fd) (hslot : ∀ fd, slot = some fd → held fd) :
    Keeps (closeFd slot world).2 (fun fd => held fd ∧ slot ≠ some fd) ∧
      SameProcesses world (closeFd slot world).2 := by
  cases slot with
  | none => exact ⟨hkeeps.congr fun fd => by simp, .refl world⟩
  | some fd =>
      refine ⟨(hkeeps.close (hslot fd rfl)).congr fun other => ?_, .closed world fd⟩
      simp [eq_comm]

theorem Keeps.closePipe {world : World} {held : Fd → Prop} (hkeeps : Keeps world held)
    (ends : Fd × Fd) (hfirst : held ends.1) (hsecond : held ends.2) (hne : ends.1 ≠ ends.2) :
    Keeps (closePipe ends world) (fun fd => held fd ∧ fd ≠ ends.1 ∧ fd ≠ ends.2) ∧
      SameProcesses world (closePipe ends world) := by
  have hone := hkeeps.close hfirst
  refine ⟨(hone.close ⟨hsecond, hne.symm⟩).congr fun fd => and_assoc, ?_⟩
  exact (SameProcesses.closed world ends.1).trans (.closed _ ends.2)

theorem tracked_release {system : System} {child : Nat} {state : State}
    (htracked : Tracked system) (hchild : system.child child = some state) (exited : Bool) :
    Tracked
      { world := (nativeRelease state exited system.world).2
        children := system.children.set child none
        released := system.released ++ [state.pid] } := by
  have hheld : ∀ fd, fd ∈ state.fds → system.HasOpen fd := fun fd hfd => ⟨child, state, hchild, hfd⟩
  have hnodup := htracked.nodup child state hchild
  have hapart : (∀ fd, state.stdinWrite = some fd → state.stdoutRead ≠ some fd ∧
      state.stderrRead ≠ some fd) ∧
      ∀ fd, state.stdoutRead = some fd → state.stderrRead ≠ some fd := by
    obtain ⟨pid, stdin, stdout, stderr, waited, code⟩ := state
    unfold State.fds at hnodup
    cases stdin <;> cases stdout <;> cases stderr <;> simp_all [eq_comm]
  obtain ⟨hstdin, hsameStdin⟩ := htracked.keeps.closeFd state.stdinWrite
    fun fd hfd => hheld fd (mem_fds.mpr (Or.inl hfd))
  obtain ⟨hstdout, hsameStdout⟩ := hstdin.closeFd state.stdoutRead fun fd hfd =>
    ⟨hheld fd (mem_fds.mpr (Or.inr (Or.inl hfd))), fun hsame => (hapart.1 fd hsame).1 hfd⟩
  obtain ⟨hstderr, hsameStderr⟩ := hstdout.closeFd state.stderrRead fun fd hfd =>
    ⟨⟨hheld fd (mem_fds.mpr (Or.inr (Or.inr hfd))), fun hsame => (hapart.1 fd hsame).2 hfd⟩,
      fun hsame => hapart.2 fd hsame hfd⟩
  have hsame := (hsameStdin.trans hsameStdout).trans hsameStderr
  have hrest : ∀ fd, (((system.HasOpen fd ∧ state.stdinWrite ≠ some fd) ∧
      state.stdoutRead ≠ some fd) ∧ state.stderrRead ≠ some fd) ↔
      (system.HasOpen fd ∧ fd ∉ state.fds) := by
    intro fd
    rw [mem_fds]
    tauto
  have hclosed := hstderr.congr hrest
  have hset := child_set hchild (nativeRelease state exited system.world).2 none
    (system.released ++ [state.pid])
  have hcases : ∀ {i : Nat} {found : State}, System.child
      { world := (nativeRelease state exited system.world).2
        children := system.children.set child none
        released := system.released ++ [state.pid] } i = some found →
      i ≠ child ∧ system.child i = some found := by
    intro i found hfound
    rw [hset i] at hfound
    by_cases hi : i = child
    · rw [if_pos hi] at hfound
      cases hfound
    · rw [if_neg hi] at hfound
      exact ⟨hi, hfound⟩
  have hiff := htracked.waited_iff child state hchild
  -- the last call may reap the process, which no other child stands for
  have hlast : Keeps (nativeRelease state exited system.world).2
        (fun fd => system.HasOpen fd ∧ fd ∉ state.fds) ∧
      (∀ pid, .forked pid ∈ (nativeRelease state exited system.world).2.trace ↔
        .forked pid ∈ system.world.trace) ∧
      (∀ pid, .reaped pid ∈ system.world.trace →
        .reaped pid ∈ (nativeRelease state exited system.world).2.trace) ∧
      (∀ pid, .reaped pid ∈ (nativeRelease state exited system.world).2.trace →
        .reaped pid ∈ system.world.trace ∨ pid = state.pid) ∧
      ∀ pid code, .exitCode pid code ∈ (nativeRelease state exited system.world).2.trace →
        .exitCode pid code ∈ system.world.trace := by
    unfold nativeRelease
    dsimp only
    split
    · rename_i hreaps
      have hwaited : state.waited ≠ true := by
        intro hwaited
        rw [hwaited] at hreaps
        cases hreaps
      refine ⟨hclosed.process ⟨?_, ?_⟩ (by simp) (by simp) (by simp), fun pid => ?_, fun pid hmem => ?_,
        fun pid hmem => ?_, fun pid code hmem => ?_⟩
      · exact (hsame.forked _).mpr (htracked.forked child state hchild)
      · exact fun hmem => hwaited (hiff.mpr ((hsame.reaped _).mp hmem))
      · rw [← hsame.forked]
        simp [World.emit]
      · simp [World.emit, (hsame.reaped pid).mpr hmem]
      · simp only [World.emit, List.mem_append, List.mem_singleton, Event.reaped.injEq] at hmem
        exact hmem.imp (hsame.reaped pid).mp id
      · exact (hsame.exitCode pid code).mp (by simpa [World.emit] using hmem)
    · exact ⟨hclosed, hsame.forked, fun pid => (hsame.reaped pid).mpr,
        fun pid hmem => Or.inl ((hsame.reaped pid).mp hmem),
        fun pid code => (hsame.exitCode pid code).mp⟩
  obtain ⟨hkeeps, hforked, hmore, hreaped, hcode⟩ := hlast
  refine
    { keeps := hkeeps.congr fun fd => ?_
      owner := fun i j fd hi hj => ?_
      nodup := fun i found hfound => htracked.nodup i found (hcases hfound).2
      forked := fun i found hfound =>
        (hforked _).mpr (htracked.forked i found (hcases hfound).2)
      pidOwner := fun i j found other hi hj =>
        htracked.pidOwner i j found other (hcases hi).2 (hcases hj).2
      waited_iff := fun i found hfound => ?_
      code := fun i found code hfound hmem =>
        htracked.code i found code (hcases hfound).2 (hcode _ code hmem)
      released_forked := fun pid hmem => (hforked pid).mpr ?_
      released_ne := fun i found hfound => ?_
      process := fun pid hfork hunreaped => ?_ }
  · constructor
    · rintro ⟨⟨i, found, hfound, hfd⟩, hgone⟩
      have hi : i ≠ child := by
        rintro rfl
        obtain rfl : state = found := Option.some.inj (hchild.symm.trans hfound)
        exact hgone hfd
      exact ⟨i, found, by rw [hset, if_neg hi]; exact hfound, hfd⟩
    · rintro ⟨i, found, hfound, hfd⟩
      obtain ⟨hi, hold⟩ := hcases hfound
      exact ⟨⟨i, found, hold, hfd⟩, fun hmem =>
        hi (htracked.owner i child fd ⟨found, hold, hfd⟩ ⟨state, hchild, hmem⟩)⟩
  · obtain ⟨found, hfound, hfd⟩ := hi
    obtain ⟨other, hother, hfd'⟩ := hj
    exact htracked.owner i j fd ⟨found, (hcases hfound).2, hfd⟩ ⟨other, (hcases hother).2, hfd'⟩
  · obtain ⟨hi, hold⟩ := hcases hfound
    rw [htracked.waited_iff i found hold]
    refine ⟨hmore _, fun hmem => (hreaped _ hmem).resolve_right fun hsame => ?_⟩
    exact hi (htracked.pidOwner i child found state hold hchild hsame)
  · rw [List.mem_append, List.mem_singleton] at hmem
    rcases hmem with hmem | rfl
    · exact htracked.released_forked pid hmem
    · exact htracked.forked child state hchild
  · obtain ⟨hi, hold⟩ := hcases hfound
    rw [List.mem_append, List.mem_singleton, not_or]
    exact ⟨htracked.released_ne i found hold, fun hsame =>
      hi (htracked.pidOwner i child found state hold hchild hsame)⟩
  · have hbefore : .reaped pid ∉ system.world.trace := fun hmem => hunreaped (hmore pid hmem)
    rcases htracked.process pid ((hforked pid).mp hfork) hbefore with ⟨i, found, hold, hsame⟩ |
      hreleased
    · by_cases hi : i = child
      · subst hi
        obtain rfl : state = found := Option.some.inj (hchild.symm.trans hold)
        exact Or.inr (by simp [← hsame])
      · exact Or.inl ⟨i, found, by rw [hset, if_neg hi]; exact hold, hsame⟩
    · exact Or.inr (List.mem_append_left _ hreleased)

/-! Spawning. -/

/-- The call of `fork` is reached and answered with a process. -/
def SpawnAnswers.forks (hasProgram : Bool) (answers : SpawnAnswers) : Bool :=
  hasProgram && answers.stdinPipe && answers.stdoutPipe && answers.stderrPipe && answers.fork

/-- A spawn that fails left no descriptor open and started no process; one that succeeds
holds three new descriptors and the new process. -/
theorem nativeSpawn_spec {world : World} {held : Fd → Prop} (hkeeps : Keeps world held)
    (hasProgram : Bool) (answers : SpawnAnswers)
    (hmemory : answers.forks hasProgram = true →
      answers.allocState = true ∧ answers.allocChild = true) :
    match nativeSpawn hasProgram answers world with
    | (none, after) => Keeps after held ∧ SameProcesses world after
    | (some state, after) =>
        Keeps after (fun fd => held fd ∨ fd ∈ state.fds) ∧ state.fds.Nodup ∧
          (∀ fd ∈ state.fds, world.nextFd ≤ fd) ∧ state.pid = world.nextPid ∧
          state.waited = false ∧
          (∀ pid, .forked pid ∈ after.trace ↔ .forked pid ∈ world.trace ∨ pid = world.nextPid) ∧
          (∀ pid, .reaped pid ∈ after.trace ↔ .reaped pid ∈ world.trace) ∧
          ∀ pid code, .exitCode pid code ∈ after.trace ↔ .exitCode pid code ∈ world.trace := by
  obtain ⟨stdinPipe, stdoutPipe, stderrPipe, forks, allocState, allocChild⟩ := answers
  have hlt : ∀ fd, held fd → fd < world.nextFd := fun fd => hkeeps.held_lt
  cases hasProgram with
  | false => exact ⟨hkeeps, .refl world⟩
  | true =>
  cases stdinPipe with
  | false => exact ⟨hkeeps, .refl world⟩
  | true =>
  have hstdin := hkeeps.openPipe
  have hsameStdin := SameProcesses.openPipe world
  cases stdoutPipe with
  | false =>
      obtain ⟨hclosed, hsame⟩ := hstdin.closePipe (world.nextFd, world.nextFd + 1)
        (by simp) (by simp) (by simp)
      refine ⟨hclosed.congr fun fd => ?_, hsameStdin.trans hsame⟩
      have hbelow := hlt fd
      grind
  | true =>
  have hstdout := hstdin.openPipe
  have hsameStdout := hsameStdin.trans (.openPipe _)
  have hnext : (Ipc.openPipe true world).2.nextFd = world.nextFd + 2 := rfl
  rw [hnext] at hstdout
  cases stderrPipe with
  | false =>
      obtain ⟨hfirst, hsameFirst⟩ := hstdout.closePipe (world.nextFd, world.nextFd + 1)
        (by simp) (by simp) (by simp)
      obtain ⟨hclosed, hsame⟩ := hfirst.closePipe (world.nextFd + 2, world.nextFd + 3)
        (by simp) (by simp) (by simp)
      refine ⟨hclosed.congr fun fd => ?_, (hsameStdout.trans hsameFirst).trans hsame⟩
      have hbelow := hlt fd
      grind
  | true =>
  have hstderr := hstdout.openPipe
  have hsameStderr := hsameStdout.trans (.openPipe _)
  have hlast : (Ipc.openPipe true (Ipc.openPipe true world).2).2.nextFd = world.nextFd + 4 := rfl
  rw [hlast] at hstderr
  cases forks with
  | false =>
      obtain ⟨hfirst, hsameFirst⟩ := hstderr.closePipe (world.nextFd, world.nextFd + 1)
        (by simp) (by simp) (by simp)
      obtain ⟨hsecond, hsameSecond⟩ := hfirst.closePipe (world.nextFd + 2, world.nextFd + 3)
        (by simp) (by simp) (by simp)
      obtain ⟨hclosed, hsame⟩ := hsecond.closePipe (world.nextFd + 4, world.nextFd + 5)
        (by simp) (by simp) (by simp)
      refine ⟨hclosed.congr fun fd => ?_,
        ((hsameStderr.trans hsameFirst).trans hsameSecond).trans hsame⟩
      have hbelow := hlt fd
      grind
  | true =>
  obtain ⟨rfl, rfl⟩ := hmemory rfl
  -- the parent keeps the far end of each pipe
  have hfork := hstderr.fork
  obtain ⟨hfirst, hsameFirst⟩ := hfork.closeFd (some world.nextFd) (by simp)
  obtain ⟨hsecond, hsameSecond⟩ := hfirst.closeFd (some (world.nextFd + 3)) (by simp)
  obtain ⟨hthird, hsameThird⟩ := hsecond.closeFd (some (world.nextFd + 5)) (by simp)
  have hsame := (hsameFirst.trans hsameSecond).trans hsameThird
  have hspawn : nativeSpawn true ⟨true, true, true, true, true, true⟩ world =
      (some ⟨world.nextPid, some (world.nextFd + 1), some (world.nextFd + 2),
        some (world.nextFd + 4), false, 0⟩,
      (Ipc.closeFd (some (world.nextFd + 5)) (Ipc.closeFd (some (world.nextFd + 3))
        (Ipc.closeFd (some world.nextFd) (Ipc.fork true (Ipc.openPipe true (Ipc.openPipe true
          (Ipc.openPipe true world).2).2).2).2).2).2).2) := rfl
  rw [hspawn]
  refine ⟨hthird.congr fun fd => ?_, by simp [State.fds], by simp [State.fds], rfl, rfl,
    fun pid => ?_, fun pid => ?_, fun pid code => ?_⟩
  · have hbelow := hlt fd
    simp only [mem_fds, ne_eq, Option.some.injEq]
    grind
  · rw [hsame.forked, ← hsameStderr.forked]
    simp [Ipc.fork, Ipc.openPipe]
  · rw [hsame.reaped, ← hsameStderr.reaped]
    simp [Ipc.fork]
  · rw [hsame.exitCode, ← hsameStderr.exitCode]
    simp [Ipc.fork]

theorem tracked_spawn {system : System} (htracked : Tracked system) (hasProgram : Bool)
    (answers : SpawnAnswers)
    (hmemory : answers.forks hasProgram = true →
      answers.allocState = true ∧ answers.allocChild = true) {after : System}
    (hstep : system.step (.spawn hasProgram answers) = some after) : Tracked after := by
  have hspec := nativeSpawn_spec htracked.keeps hasProgram answers hmemory
  simp only [System.step, Option.some.injEq] at hstep
  cases hspawn : nativeSpawn hasProgram answers system.world with
  | mk result world =>
  rw [hspawn] at hspec hstep
  cases result with
  | none =>
      obtain ⟨hkeeps, hsame⟩ := hspec
      rw [← hstep]
      exact htracked.of_world hkeeps hsame
  | some state =>
  obtain ⟨hkeeps, hnodup, hfresh, hpid, hwaited, hforked, hreaped, hcode⟩ := hspec
  subst hstep
  have hset := child_append system world state
  have hcases : ∀ {i : Nat} {found : State}, System.child { system with
      world := world, children := system.children ++ [some state] } i = some found →
      (i = system.children.length ∧ found = state) ∨ system.child i = some found := by
    intro i found hfound
    rw [hset i] at hfound
    by_cases hi : i = system.children.length
    · rw [if_pos hi] at hfound
      exact Or.inl ⟨hi, (Option.some.inj hfound).symm⟩
    · rw [if_neg hi] at hfound
      exact Or.inr hfound
  have hold : ∀ {i : Nat} {found : State}, system.child i = some found → System.child { system with
      world := world, children := system.children ++ [some state] } i = some found := by
    intro i found hfound
    rw [hset, if_neg, hfound]
    rintro rfl
    simp [System.child] at hfound
  have hpidFresh : .forked state.pid ∉ system.world.trace := by
    rw [hpid]
    exact fun hmem => Nat.lt_irrefl _ (htracked.keeps.forked_lt _ hmem)
  have hreapedFresh : .reaped state.pid ∉ system.world.trace :=
    fun hmem => hpidFresh (htracked.keeps.lawful.forked_of_reaped hmem)
  have hfreshHeld : ∀ {i : Nat} {fd : Fd}, system.Holds i fd → fd ∉ state.fds := by
    intro i fd hholds hmem
    exact absurd (htracked.keeps.held_lt ⟨i, hholds⟩) (Nat.not_lt.mpr (hfresh fd hmem))
  have hpidNe : ∀ {i : Nat} {found : State}, system.child i = some found →
      found.pid ≠ state.pid := by
    intro i found hfound hsame
    exact hpidFresh (hsame ▸ htracked.forked i found hfound)
  have hholds : ∀ {i : Nat} {fd : Fd}, System.Holds { system with
      world := world, children := system.children ++ [some state] } i fd →
      (i = system.children.length ∧ fd ∈ state.fds) ∨ system.Holds i fd := by
    rintro i fd ⟨found, hfound, hfd⟩
    rcases hcases hfound with ⟨hi, rfl⟩ | hbefore
    · exact Or.inl ⟨hi, hfd⟩
    · exact Or.inr ⟨found, hbefore, hfd⟩
  have hnew : System.child { system with
      world := world, children := system.children ++ [some state] } system.children.length =
      some state := by rw [hset, if_pos rfl]
  refine
    { keeps := hkeeps.congr fun fd => ?_
      owner := fun i j fd hi hj => ?_
      nodup := fun i found hfound => ?_
      forked := fun i found hfound => ?_
      pidOwner := fun i j found other hi hj hsame => ?_
      waited_iff := fun i found hfound => ?_
      code := fun i found code hfound hmem => ?_
      released_forked := fun pid hmem => (hforked pid).mpr (Or.inl (htracked.released_forked pid hmem))
      released_ne := fun i found hfound => ?_
      process := fun pid hfork hunreaped => ?_ }
  · constructor
    · rintro (⟨i, found, hfound, hfd⟩ | hfd)
      · exact ⟨i, found, hold hfound, hfd⟩
      · exact ⟨_, state, hnew, hfd⟩
    · rintro ⟨i, hi⟩
      rcases hholds hi with ⟨-, hfd⟩ | hbefore
      · exact Or.inr hfd
      · exact Or.inl ⟨i, hbefore⟩
  · rcases hholds hi with ⟨rfl, hfd⟩ | hbefore <;> rcases hholds hj with ⟨rfl, hfd'⟩ | hbefore'
    · rfl
    · exact absurd hfd (hfreshHeld hbefore')
    · exact absurd hfd' (hfreshHeld hbefore)
    · exact htracked.owner i j fd hbefore hbefore'
  · rcases hcases hfound with ⟨-, rfl⟩ | hbefore
    · exact hnodup
    · exact htracked.nodup i found hbefore
  · rw [hforked]
    rcases hcases hfound with ⟨-, rfl⟩ | hbefore
    · exact Or.inr hpid
    · exact Or.inl (htracked.forked i found hbefore)
  · rcases hcases hi with ⟨rfl, rfl⟩ | hbefore <;> rcases hcases hj with ⟨rfl, rfl⟩ | hbefore'
    · rfl
    · exact absurd hsame.symm (hpidNe hbefore')
    · exact absurd hsame (hpidNe hbefore)
    · exact htracked.pidOwner i j found other hbefore hbefore' hsame
  · change _ ↔ _ ∈ world.trace
    rw [hreaped]
    rcases hcases hfound with ⟨-, rfl⟩ | hbefore
    · simp [hwaited, hreapedFresh]
    · exact htracked.waited_iff i found hbefore
  · have hpast : .exitCode found.pid code ∈ system.world.trace := (hcode _ _).mp hmem
    rcases hcases hfound with ⟨-, rfl⟩ | hbefore
    · exact absurd (htracked.keeps.lawful.reaped_of_exitCode hpast) hreapedFresh
    · exact htracked.code i found code hbefore hpast
  · rcases hcases hfound with ⟨-, rfl⟩ | hbefore
    · exact fun hmem => hpidFresh (htracked.released_forked _ hmem)
    · exact htracked.released_ne i found hbefore
  · rcases (hforked pid).mp hfork with hbefore | rfl
    · rcases htracked.process pid hbefore (fun hmem => hunreaped ((hreaped pid).mpr hmem)) with
        ⟨i, found, hfound, hsame⟩ | hreleased
      · exact Or.inl ⟨i, found, hold hfound, hsame⟩
      · exact Or.inr hreleased
    · exact Or.inl ⟨_, state, hnew, hpid⟩

/-! Whole runs. -/

/-- The steps that keep to the protocol: a started process has its records allocated, and a
child that was waited for gets no signal. -/
def System.sound (system : System) : Op → Bool
  | .spawn hasProgram answers =>
      !answers.forks hasProgram || (answers.allocState && answers.allocChild)
  | .kill child _ => (system.child child).all fun state => !state.waited
  | _ => true

theorem tracked_step {system after : System} {op : Op} (htracked : Tracked system)
    (hsound : system.sound op = true) (hstep : system.step op = some after) : Tracked after := by
  cases op with
  | spawn hasProgram answers =>
      refine tracked_spawn htracked hasProgram answers (fun hforks => ?_) hstep
      rw [System.sound, hforks] at hsound
      exact Bool.and_eq_true_iff.mp hsound
  | stdinWrite child length written =>
      obtain ⟨state, hchild, rfl⟩ := Option.map_eq_some_iff.mp hstep
      exact tracked_call htracked hchild (fun fd hfd => mem_fds.mpr (Or.inl hfd))
        (usesSlot_stdinWrite state length written _)
  | stdinWriteLine child value answers =>
      obtain ⟨state, hchild, rfl⟩ := Option.map_eq_some_iff.mp hstep
      exact tracked_call htracked hchild (fun fd hfd => mem_fds.mpr (Or.inl hfd))
        (usesSlot_stdinWriteLine state value answers _)
  | stdinClose child =>
      obtain ⟨state, hchild, rfl⟩ := Option.map_eq_some_iff.mp hstep
      exact tracked_stdinClose htracked hchild
  | stdoutRead child maxBytes alloc bytes =>
      obtain ⟨state, hchild, rfl⟩ := Option.map_eq_some_iff.mp hstep
      exact tracked_call htracked hchild (fun fd hfd => mem_fds.mpr (Or.inr (Or.inl hfd)))
        (usesSlot_readFd state.stdoutRead maxBytes alloc bytes _)
  | stdoutReadLine child maxBytes alloc answers =>
      obtain ⟨state, hchild, rfl⟩ := Option.map_eq_some_iff.mp hstep
      exact tracked_call htracked hchild (fun fd hfd => mem_fds.mpr (Or.inr (Or.inl hfd)))
        (usesSlot_readLineFd state.stdoutRead maxBytes alloc answers _)
  | stderrRead child maxBytes alloc bytes =>
      obtain ⟨state, hchild, rfl⟩ := Option.map_eq_some_iff.mp hstep
      exact tracked_call htracked hchild (fun fd hfd => mem_fds.mpr (Or.inr (Or.inr hfd)))
        (usesSlot_readFd state.stderrRead maxBytes alloc bytes _)
  | stderrReadLine child maxBytes alloc answers =>
      obtain ⟨state, hchild, rfl⟩ := Option.map_eq_some_iff.mp hstep
      exact tracked_call htracked hchild (fun fd hfd => mem_fds.mpr (Or.inr (Or.inr hfd)))
        (usesSlot_readLineFd state.stderrRead maxBytes alloc answers _)
  | wait child answer =>
      obtain ⟨state, hchild, rfl⟩ := Option.map_eq_some_iff.mp hstep
      exact tracked_wait htracked hchild answer
  | kill child answer =>
      obtain ⟨state, hchild, rfl⟩ := Option.map_eq_some_iff.mp hstep
      have hunwaited : state.waited = false := by
        simpa [System.sound, hchild] using hsound
      have hadmits : Admits system.world.trace (.signalled state.pid) := fun hmem => by
        have hwaited := (htracked.waited_iff child state hchild).mpr hmem
        rw [hunwaited] at hwaited
        cases hwaited
      exact htracked.of_world (htracked.keeps.process hadmits (by simp) (by simp) (by simp))
        (.emit (by simp) (by simp) (by simp))
  | release child exited =>
      obtain ⟨state, hchild, rfl⟩ := Option.map_eq_some_iff.mp hstep
      exact tracked_release htracked hchild exited

/-- The program runs the operations in order, each on a child that it still holds. -/
def System.run (system : System) : List Op → Option System
  | [] => some system
  | op :: ops => (system.step op).bind fun next => next.run ops

def System.soundRun (system : System) : List Op → Bool
  | [] => true
  | op :: ops => system.sound op && (system.step op).all fun next => next.soundRun ops

theorem tracked_run {ops : List Op} {system last : System} (htracked : Tracked system)
    (hsound : system.soundRun ops = true) (hrun : system.run ops = some last) : Tracked last := by
  induction ops generalizing system with
  | nil =>
      cases hrun
      exact htracked
  | cons op ops ih =>
      obtain ⟨next, hstep, hrest⟩ := Option.bind_eq_some_iff.mp hrun
      rw [System.soundRun, hstep, Option.all_some, Bool.and_eq_true] at hsound
      exact ih (tracked_step htracked hsound.1 hstep) hsound.2 hrest

/-- What the program owes the kernel: the trace is lawful, an open descriptor belongs to a
child it still holds, and a process that was not reaped to a child it holds or released. -/
structure System.Clean (system : System) : Prop where
  lawful : Lawful system.world.trace
  opened : ∀ fd, IsOpen system.world.trace fd → system.HasOpen fd
  process : ∀ pid, .forked pid ∈ system.world.trace → .reaped pid ∉ system.world.trace →
    (∃ i state, system.child i = some state ∧ state.pid = pid) ∨ pid ∈ system.released

theorem run_clean (ops : List Op) {last : System} (hsound : System.init.soundRun ops = true)
    (hrun : System.init.run ops = some last) : last.Clean := by
  have htracked := tracked_run .init hsound hrun
  exact ⟨htracked.keeps.lawful, fun fd => (htracked.keeps.open_iff fd).mp, htracked.process⟩

/-- Two children, one of which is killed, waited for and released, while no process can be
started for a third. -/
def busyProgram : List Op :=
  [.spawn true ⟨true, true, true, true, true, true⟩,
    .spawn true ⟨true, true, true, true, true, true⟩,
    .stdinWriteLine 0 [104, 105] [2, 1], .stdinClose 0, .stdinClose 0, .kill 0 true,
    .spawn true ⟨true, true, true, false, true, true⟩,
    .stdoutReadLine 0 8 true [.byte 79, .byte 75, .byte 10], .stderrRead 1 4 true [],
    .wait 0 (some (.signalled 9)), .wait 0 none, .release 0 false, .wait 1 none, .release 1 true]

theorem run_clean_busyProgram :
    ∃ last, System.init.run busyProgram = some last ∧ last.Clean :=
  ⟨(System.init.run busyProgram).get (by decide), by decide,
    run_clean busyProgram (by decide) (by decide)⟩

/-- `kill` after `wait` signals a process id that was given back. -/
theorem kill_after_wait :
    ∃ last, System.init.run [.spawn true ⟨true, true, true, true, true, true⟩,
      .wait 0 (some (.exited 0)), .kill 0 true] = some last ∧ ¬ last.Clean := by
  refine ⟨_, rfl, fun hclean => ?_⟩
  have hadmits : Admits _ (.signalled 0) := hclean.lawful _ _ [] (List.dropLast_concat_getLast
    (by decide)).symm
  exact hadmits (by decide)

end Ipc

end Cnegative
