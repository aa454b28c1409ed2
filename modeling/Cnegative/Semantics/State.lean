import Cnegative.Semantics.Value

namespace Cnegative

/-! The state a run works on, and the operations of the runtime on it. -/

inductive Fault where
  | divisionByZero
  | undefined
  | outOfFuel
  deriving DecidableEq, Repr

inductive Storage where
  | stack
  | heap
  | zone (handle : Nat)
  deriving DecidableEq, Repr

structure Cell where
  storage : Storage
  live : Bool
  value : Value
  deriving Repr

inductive Event where
  | call (target : CallTarget) (moduleName functionName : Name) (arguments : List Value)
  | store (place : Place) (value : Value)
  | free (value : Value)
  | zoneEnter (handle : Nat)
  | zoneRelease (handle : Nat)
  deriving Repr

/-- `zones` says of every zone entered so far whether it is still open; `world`
is what lies outside the program; `events` come newest first. -/
structure State (ω : Type) where
  cells : List Cell
  zones : List Bool
  world : ω
  events : List Event

variable {ω : Type}

namespace State

def load? (state : State ω) (place : Place) : Option Value := do
  let cell ← state.cells[place.cell]?
  if cell.live then cell.value.get? place.path else none

def store? (state : State ω) (place : Place) (value : Value) : Option (State ω) := do
  let cell ← state.cells[place.cell]?
  if cell.live then
    let changed ← cell.value.set? value place.path
    return { state with
      cells := state.cells.set place.cell { cell with value := changed }
      events := .store place value :: state.events }
  else none

def allocate (state : State ω) (storage : Storage) (value : Value) : State ω :=
  { state with cells := state.cells ++ [⟨storage, true, value⟩] }

def log (state : State ω) (event : Event) : State ω :=
  { state with events := event :: state.events }

def kill (state : State ω) (dies : Nat → Cell → Bool) : State ω :=
  { state with
    cells := state.cells.mapIdx fun index cell =>
      if dies index cell then { cell with live := false } else cell }

def releaseZone (state : State ω) (handle : Nat) : State ω :=
  { state.kill (fun _ cell => cell.storage = .zone handle) with
    zones := state.zones.set handle false
    events := .zoneRelease handle :: state.events }

/-- The stack cells from `base` on, which die when their function returns. -/
def dropFrame (state : State ω) (base : Nat) : State ω :=
  state.kill fun index cell => base ≤ index && cell.storage = .stack

def isLive (state : State ω) (index : Nat) : Bool :=
  match state.cells[index]? with
  | some cell => cell.live
  | none => false

mutual

/-- No string in the value was freed. -/
def readable (state : State ω) : Value → Bool
  | .str (some owner) _ => state.isLive owner
  | .aggregate items => state.allReadable items
  | _ => true

def allReadable (state : State ω) : List Value → Bool
  | [] => true
  | item :: rest => state.readable item && state.allReadable rest

end

end State

/-- A computation of the program: a fault keeps the state it happened in. -/
abbrev Eval (ω : Type) := EStateM Fault (State ω)

namespace Eval

def undefined {α : Type} : Eval ω α :=
  throw .undefined

/-- A partial operation, undefined behaviour where it has no result. -/
def ofOption {α : Type} : Option α → Eval ω α
  | some value => pure value
  | none => undefined

def load (place : Place) : Eval ω Value := do
  ofOption ((← get).load? place)

def store (place : Place) (value : Value) : Eval ω Unit := do
  set (← ofOption ((← get).store? place value))

def allocate (storage : Storage) (value : Value) : Eval ω Place := do
  let state ← get
  set (state.allocate storage value)
  return ⟨state.cells.length, []⟩

def log (event : Event) : Eval ω Unit :=
  modify fun state => state.log event

def enterZone : Eval ω Nat := do
  let state ← get
  set { state with
    zones := state.zones ++ [true]
    events := .zoneEnter state.zones.length :: state.events }
  return state.zones.length

def releaseZone (value : Value) : Eval ω Unit := do
  match value with
  | .zone handle =>
      if (← get).zones[handle]? = some true then
        modify fun state => state.releaseZone handle
      else undefined
  | .ptr none => pure ()
  | _ => undefined

def zoneAllocate (zone : Value) (value : Value) : Eval ω Value := do
  match zone with
  | .zone handle =>
      if (← get).zones[handle]? = some true then
        return .ptr (some (← allocate (.zone handle) value))
      else undefined
  | .ptr none => return .ptr none
  | _ => undefined

def equal (left right : Value) : Eval ω Bool := do
  if (← get).readable left && (← get).readable right then ofOption (left.equal right)
  else undefined

/-- `free` and `cn_free_str`, which knows no literal and no string twice. -/
def free (value : Value) : Eval ω Unit := do
  match value with
  | .ptr (some ⟨index, []⟩) =>
      match (← get).cells[index]? with
      | some cell =>
          if cell.live && cell.storage = .heap then do
            modify fun state => state.kill fun other _ => other = index
            log (.free value)
          else undefined
      | none => undefined
  | .str (some owner) _ => do
      modify fun state => state.kill fun other _ => other = owner
      log (.free value)
  | .ptr none | .str none _ => log (.free value)
  | _ => undefined

end Eval

namespace Value

def asInt : Value → Eval ω (BitVec 64)
  | .int value => pure value
  | _ => Eval.undefined

def asBool : Value → Eval ω Bool
  | .bool value => pure value
  | _ => Eval.undefined

def asPlace : Value → Eval ω Place
  | .ptr (some place) => pure place
  | _ => Eval.undefined

end Value

end Cnegative
