import Cnegative.Semantics.Expr

namespace Cnegative

namespace Semantics

open Library (Frame Chain)

variable {ω : Type}

inductive Flow where
  | next
  | returned (value : Option Value)
  deriving Repr

/-- `body` says whether to go on; it runs at most `fuel` times. -/
def iterate (body : Eval ω (Option Flow)) : Nat → Eval ω Flow
  | 0 => throw .outOfFuel
  | fuel + 1 => do
      match ← body with
      | none => iterate body fuel
      | some flow => return flow

/-- A loop goes on as long as its body does not return. -/
def Flow.again : Flow → Option Flow
  | .next => none
  | .returned value => some (.returned value)

def returnValue (structs : StructTable) (callee : Callee ω) (env : Env) :
    Option IrExpr → Eval ω (Option Value)
  | none => pure none
  | some value => do return some (← (denote structs callee env value).value)

section

variable (structs : StructTable) (callee : Callee ω) (fuel : Nat)

mutual

/-- A statement with the scope for the statements behind it. -/
def execStmt (env : Env) : IrStmt → Eval ω (Env × Flow)
  | .letStmt name _ _ initializer => do
      let value ← (denote structs callee env initializer).value
      let place ← Eval.allocate .stack value
      return (env.define name place.cell, .next)
  | .assign target value => do
      let place ←
        if target.isPlace then (denote structs callee env target).place else Eval.undefined
      let stored ← (denote structs callee env value).value
      Eval.store place stored
      return (env, .next)
  | .returnStmt value => do
      let result ← returnValue structs callee env value
      return (env, .returned result)
  | .expr value => do
      let _ ← (denote structs callee env value).value
      return (env, .next)
  | .zone zoneName body => do
      let handle ← Eval.enterZone
      let place ← Eval.allocate .stack (.zone handle)
      let flow ← execStmts ((env.push.define zoneName place.cell).push) body
      return (env, flow)
  | .ifStmt condition thenBlock elseBlock => do
      let test ← (← (denote structs callee env condition).value).asBool
      let flow ← if test then execStmts env.push thenBlock else execElse env elseBlock
      return (env, flow)
  | .whileStmt condition body => do
      let flow ← iterate (do
        if ← (← (denote structs callee env condition).value).asBool then
          return (← execStmts env.push body).again
        else return some .next) fuel
      return (env, flow)
  | .loop body => do
      let flow ← iterate (do return (← execStmts env.push body).again) fuel
      return (env, flow)
  | .forStmt name _ start stop body => do
      let first ← (denote structs callee env start).value
      let last ← (← (denote structs callee env stop).value).asInt
      let counter ← Eval.allocate .stack first
      let inner := (env.push.define name counter.cell).push
      let flow ← iterate (do
        let current ← (← Eval.load counter).asInt
        if current.slt last then
          match ← execStmts inner body with
          | .next => do
              let reached ← (← Eval.load counter).asInt
              Eval.store counter (.int (reached + 1))
              return none
          | .returned value => return some (.returned value)
        else return some .next) fuel
      return (env, flow)
  | .free value => do
      Eval.free (← (denote structs callee env value).value)
      return (env, .next)

def execElse (env : Env) : Option (List IrStmt) → Eval ω Flow
  | none => pure .next
  | some block => execStmts env.push block

def execStmts (env : Env) : List IrStmt → Eval ω Flow
  | [] => pure .next
  | statement :: rest => do
      let (after, flow) ← execStmt env statement
      match flow with
      | .next => execStmts after rest
      | .returned value => return .returned value

end

end

/-- The parameters in their cells, in the root scope of the function. -/
def bindArguments (env : Env) : List Param → List Value → Eval ω Env
  | [], [] => pure env
  | param :: params, argument :: arguments => do
      let place ← Eval.allocate .stack argument
      bindArguments (env.define param.name place.cell) params arguments
  | _, _ => Eval.undefined

/-- What control reaching the end of a body returns. -/
def fallOff (returnType : TypeRef) : Flow → Eval ω Value
  | .returned (some value) => pure value
  | .returned none => pure .void
  | .next => if returnType = .void then pure .void else Eval.undefined

def callFunction (structs : StructTable) (callee : Callee ω) (fuel : Nat) (function : IrFunction)
    (arguments : List Value) : Eval ω Value := do
  let base := (← get).cells.length
  let env ← bindArguments (Env.push []) function.parameters arguments
  let flow ← execStmts structs callee fuel env function.body
  let value ← fallOff function.returnType flow
  modify fun state => state.dropFrame base
  return value

end Semantics

def IrProgram.findFunction (program : IrProgram) (moduleName functionName : Name) :
    Option IrFunction :=
  (program.modules.filter (fun module => module.name == moduleName)).findSome?
    (fun module => module.functions.find? (fun function => function.name == functionName))

namespace Semantics

variable {ω : Type}

/-- A call inside a program: `runtime` is what the builtins do, and `fuel` bounds
the depth of calls and the rounds of each loop. -/
def runCall (program : IrProgram) (runtime : Callee ω) : Nat → Callee ω
  | 0, _, _, _, _ => throw .outOfFuel
  | fuel + 1, target, moduleName, functionName, arguments =>
      match target with
      | .builtin => runtime target moduleName functionName arguments
      | _ => do
          let function ← Eval.ofOption (program.findFunction moduleName functionName)
          callFunction program.structTable (runCall program runtime fuel) fuel function arguments

/-- The number `main` of module `main` returns, in a program without builtins. -/
def mainResult (program : IrProgram) (fuel : Nat) : Option (BitVec 64) :=
  let idle : Callee Unit := fun _ _ _ _ => pure .void
  match runCall program idle fuel .local "main" "main" [] ⟨[], [], (), []⟩ with
  | .ok (.int value) _ => some value
  | _ => none

end Semantics

end Cnegative
