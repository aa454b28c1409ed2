import Mathlib.Data.List.Basic

namespace Cnegative

namespace Ipc

/-! The POSIX half of the process runtime.  Descriptors and processes are numbered in the
order the kernel hands them out, so that a number that the kernel gives out again counts as
new.  What the kernel answers is an argument of each function. -/

abbrev Fd := Nat

abbrev Pid := Nat

/-- What the calls of the runtime did, the oldest first. -/
inductive Event where
  | opened (fd : Fd)
  | closed (fd : Fd)
  | used (fd : Fd)
  | forked (pid : Pid)
  | reaped (pid : Pid)
  | signalled (pid : Pid)
  | exitCode (pid : Pid) (code : Int)
  deriving DecidableEq, Repr

structure World where
  nextFd : Fd
  nextPid : Pid
  trace : List Event
  deriving DecidableEq, Repr

def World.emit (world : World) (event : Event) : World :=
  { world with trace := world.trace ++ [event] }

/-- `cn_ipc_state`; a negative descriptor is `none`. -/
structure State where
  pid : Pid
  stdinWrite : Option Fd
  stdoutRead : Option Fd
  stderrRead : Option Fd
  waited : Bool
  exitCode : Int
  deriving DecidableEq, Repr

abbrev Call (α : Type) := World → α × World

/-- `cn_ipc_close_fd`; the slot it clears is the result. -/
def closeFd : Option Fd → Call (Option Fd)
  | none => fun world => (none, world)
  | some fd => fun world => (none, world.emit (.closed fd))

def openPipe (answer : Bool) : Call (Option (Fd × Fd)) := fun world =>
  if answer then
    (some (world.nextFd, world.nextFd + 1),
      { world with
        nextFd := world.nextFd + 2
        trace := world.trace ++ [.opened world.nextFd, .opened (world.nextFd + 1)] })
  else (none, world)

/-- `fork`, in the parent. -/
def fork (answer : Bool) : Call (Option Pid) := fun world =>
  if answer then
    (some world.nextPid,
      { world with
        nextPid := world.nextPid + 1
        trace := world.trace ++ [.forked world.nextPid] })
  else (none, world)

def closePipe (ends : Fd × Fd) (world : World) : World :=
  (closeFd (some ends.2) (closeFd (some ends.1) world).2).2

/-- The answers of `pipe`, `fork` and `malloc` during one spawn. -/
structure SpawnAnswers where
  stdinPipe : Bool
  stdoutPipe : Bool
  stderrPipe : Bool
  fork : Bool
  allocState : Bool
  allocChild : Bool
  deriving DecidableEq, Repr

/-- `cn_ipc_native_spawn` in the parent; the new process works on its own descriptors. -/
def nativeSpawn (hasProgram : Bool) (answers : SpawnAnswers) : Call (Option State) := fun world =>
  if !hasProgram then (none, world)
  else match openPipe answers.stdinPipe world with
    | (none, world) => (none, world)
    | (some stdinPipe, world) =>
      match openPipe answers.stdoutPipe world with
      | (none, world) => (none, closePipe stdinPipe world)
      | (some stdoutPipe, world) =>
        match openPipe answers.stderrPipe world with
        | (none, world) => (none, closePipe stdoutPipe (closePipe stdinPipe world))
        | (some stderrPipe, world) =>
          match fork answers.fork world with
          | (none, world) =>
            (none, closePipe stderrPipe (closePipe stdoutPipe (closePipe stdinPipe world)))
          | (some pid, world) =>
            let world := (closeFd (some stdinPipe.1) world).2
            let world := (closeFd (some stdoutPipe.2) world).2
            let world := (closeFd (some stderrPipe.2) world).2
            if answers.allocState && answers.allocChild then
              (some ⟨pid, some stdinPipe.2, some stdoutPipe.1, some stderrPipe.1, false, 0⟩, world)
            else
              let world := (closeFd (some stdinPipe.2) world).2
              let world := (closeFd (some stdoutPipe.1) world).2
              (none, (closeFd (some stderrPipe.1) world).2)

/-- `cn_ipc_native_stdin_write`; `written` is the answer of `write`. -/
def nativeStdinWrite (state : State) (length : Nat) (written : Int) : Call Int := fun world =>
  match state.stdinWrite with
  | none => (-1, world)
  | some fd =>
    if length = 0 then (0, world)
    else (if written < 0 then -1 else written, world.emit (.used fd))

def newline : UInt8 := 10
def carriageReturn : UInt8 := 13

/-- `cn_ipc_native_stdin_write_line`, for any `write`. -/
def nativeStdinWriteLine {σ : Type} (write : Fd → List UInt8 → σ → Int × σ) (child : Option State)
    (value : Option (List UInt8)) (state : σ) : Int × σ :=
  match child.bind State.stdinWrite, value with
  | some fd, some value =>
      let (written, state) := if 0 < value.length then write fd value state else (0, state)
      if written < 0 then (-1, state)
      else
        let (newlineWritten, state) := write fd [newline] state
        if newlineWritten < 0 then (-1, state) else (written + newlineWritten, state)
  | _, _ => (-1, state)

def nativeStdinClose (state : State) : Call (Bool × State) := fun world =>
  match state.stdinWrite with
  | none => ((false, state), world)
  | some fd => ((true, { state with stdinWrite := none }), world.emit (.closed fd))

/-- `cn_ipc_read_fd`; the bytes are the answer of `read`, none at its end or on an error. -/
def readFd (fd : Option Fd) (maxBytes : Int) (alloc : Bool) (bytes : List UInt8) :
    Call (Option (List UInt8)) := fun world =>
  match fd with
  | none => (none, world)
  | some fd =>
    if maxBytes ≤ 0 ∨ alloc = false then (none, world)
    else (if bytes = [] then none else some bytes, world.emit (.used fd))

/-- The answer of a `read` of one byte. -/
inductive ByteAnswer where
  | byte (value : UInt8)
  | finished
  | failed
  deriving DecidableEq, Repr

def stripReturn (line : List UInt8) : List UInt8 :=
  if line.getLast? = some carriageReturn then line.dropLast else line

section

variable {σ : Type} (read : Fd → σ → ByteAnswer × σ)

/-- The loop of `cn_ipc_read_line_fd`, for any `read`: the buffer, and whether the last `read`
found a byte; `none` after a failed `read`.  `room` is `max_bytes - length`. -/
def readLineLoop (fd : Fd) : Nat → List UInt8 → Bool → σ → Option (List UInt8 × Bool) × σ
  | 0, buffer, found, state => (some (buffer, found), state)
  | room + 1, buffer, _, state =>
      match read fd state with
      | (.finished, state) => (some (buffer, false), state)
      | (.failed, state) => (none, state)
      | (.byte ch, state) =>
          if ch = newline then (some (buffer, true), state)
          else readLineLoop fd room (buffer ++ [ch]) true state

/-- `cn_ipc_read_line_fd`; `none` is the null pointer. -/
def readLineFd (fd : Option Fd) (maxBytes : Int) (alloc : Bool) (state : σ) :
    Option (List UInt8) × σ :=
  match fd with
  | none => (none, state)
  | some fd =>
      if maxBytes ≤ 0 ∨ alloc = false then (none, state)
      else match readLineLoop read fd maxBytes.toNat [] false state with
        | (none, state) => (none, state)
        | (some (buffer, found), state) =>
            if buffer = [] ∧ found = false then (none, state)
            else (some (stripReturn buffer), state)

end

/-- The status word of `waitpid`. -/
inductive Status where
  | exited (code : Nat)
  | signalled (signal : Nat)
  | other
  deriving DecidableEq, Repr

def Status.exitCode : Status → Int
  | .exited code => code
  | .signalled signal => 128 + signal
  | .other => 128

/-- `cn_ipc_native_wait`; a failed `waitpid` answers `none`. -/
def nativeWait (state : State) (answer : Option Status) : Call (Option Int × State) := fun world =>
  if state.waited then
    ((some state.exitCode, state), world.emit (.exitCode state.pid state.exitCode))
  else match answer with
    | none => ((none, state), world)
    | some status =>
      ((some status.exitCode, { state with exitCode := status.exitCode, waited := true }),
        (world.emit (.reaped state.pid)).emit (.exitCode state.pid status.exitCode))

def nativeKill (state : State) (answer : Bool) : Call Bool := fun world =>
  (answer, world.emit (.signalled state.pid))

/-- `cn_ipc_native_release`; `exited` tells whether `waitpid` finds the process ended. -/
def nativeRelease (state : State) (exited : Bool) : Call Bool := fun world =>
  let world := (closeFd state.stdinWrite world).2
  let world := (closeFd state.stdoutRead world).2
  let world := (closeFd state.stderrRead world).2
  (true, if !state.waited && exited then world.emit (.reaped state.pid) else world)

/-! `read` and `write` that answer one after the other what they are given; nothing more is a
closed pipe. -/

def answeredRead (fd : Fd) : World × List ByteAnswer → ByteAnswer × World × List ByteAnswer
  | (world, []) => (.finished, world.emit (.used fd), [])
  | (world, answer :: rest) => (answer, world.emit (.used fd), rest)

def answeredWrite (fd : Fd) (_data : List UInt8) : World × List Int → Int × World × List Int
  | (world, []) => (-1, world.emit (.used fd), [])
  | (world, answer :: rest) => (answer, world.emit (.used fd), rest)

def answering {α β : Type} (run : World × List β → α × World × List β) (answers : List β) :
    Call α := fun world =>
  let (result, world, _) := run (world, answers)
  (result, world)

/-! A program works on the children it holds; a released child is out of its hands. -/

inductive Op where
  | spawn (hasProgram : Bool) (answers : SpawnAnswers)
  | stdinWrite (child : Nat) (length : Nat) (written : Int)
  | stdinWriteLine (child : Nat) (value : List UInt8) (answers : List Int)
  | stdinClose (child : Nat)
  | stdoutRead (child : Nat) (maxBytes : Int) (alloc : Bool) (bytes : List UInt8)
  | stdoutReadLine (child : Nat) (maxBytes : Int) (alloc : Bool) (answers : List ByteAnswer)
  | stderrRead (child : Nat) (maxBytes : Int) (alloc : Bool) (bytes : List UInt8)
  | stderrReadLine (child : Nat) (maxBytes : Int) (alloc : Bool) (answers : List ByteAnswer)
  | wait (child : Nat) (answer : Option Status)
  | kill (child : Nat) (answer : Bool)
  | release (child : Nat) (exited : Bool)
  deriving DecidableEq, Repr

/-- The children of the program, `none` once released, and the processes it let go. -/
structure System where
  world : World
  children : List (Option State)
  released : List Pid
  deriving DecidableEq, Repr

def System.init : System := ⟨⟨0, 0, []⟩, [], []⟩

def System.child (system : System) (child : Nat) : Option State :=
  (system.children[child]?).join

/-- A call that leaves the record of the child as it is. -/
def System.call {α : Type} (system : System) (run : Call α) : System :=
  { system with world := (run system.world).2 }

def System.step (system : System) : Op → Option System
  | .spawn hasProgram answers =>
      let spawned := nativeSpawn hasProgram answers system.world
      some { system with
        world := spawned.2
        children := match spawned.1 with
          | none => system.children
          | some state => system.children ++ [some state] }
  | .stdinWrite child length written =>
      (system.child child).map fun state => system.call (nativeStdinWrite state length written)
  | .stdinWriteLine child value answers =>
      (system.child child).map fun state =>
        system.call
          (answering (nativeStdinWriteLine answeredWrite (some state) (some value)) answers)
  | .stdinClose child =>
      (system.child child).map fun state =>
        let closed := nativeStdinClose state system.world
        { system with
          world := closed.2
          children := system.children.set child (some closed.1.2) }
  | .stdoutRead child maxBytes alloc bytes =>
      (system.child child).map fun state =>
        system.call (readFd state.stdoutRead maxBytes alloc bytes)
  | .stdoutReadLine child maxBytes alloc answers =>
      (system.child child).map fun state =>
        system.call (answering (readLineFd answeredRead state.stdoutRead maxBytes alloc) answers)
  | .stderrRead child maxBytes alloc bytes =>
      (system.child child).map fun state =>
        system.call (readFd state.stderrRead maxBytes alloc bytes)
  | .stderrReadLine child maxBytes alloc answers =>
      (system.child child).map fun state =>
        system.call (answering (readLineFd answeredRead state.stderrRead maxBytes alloc) answers)
  | .wait child answer =>
      (system.child child).map fun state =>
        let waited := nativeWait state answer system.world
        { system with
          world := waited.2
          children := system.children.set child (some waited.1.2) }
  | .kill child answer =>
      (system.child child).map fun state => system.call (nativeKill state answer)
  | .release child exited =>
      (system.child child).map fun state =>
        { world := (nativeRelease state exited system.world).2
          children := system.children.set child none
          released := system.released ++ [state.pid] }

end Ipc

end Cnegative
