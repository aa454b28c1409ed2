import Cnegative.Check.Project
import Cnegative.Lower.Stmt

namespace Cnegative

namespace Lower

open Library (Ref Frame Chain)
open Check (constFuel)

/-! Lowering of declarations and of a whole project. -/

def Context.constUse (ctx : Context) : ConstUse :=
  lowerConstUse ctx.project (constFuel ctx.project)

def Context.moduleName (ctx : Context) : Name :=
  Check.moduleName ctx.project ctx.self

def lowerConst (ctx : Context) (decl : ConstDecl) : Option IrConst := do
  let type := ctx.canon decl.type
  let initializer ← lowerExpr ctx (lowerConstUse ctx.project (constFuel ctx.project)) []
    (some type) decl.initializer
  return ⟨decl.isPublic, ctx.moduleName, decl.name, type, initializer⟩

def lowerStruct (ctx : Context) (decl : StructDecl) : IrStruct :=
  ⟨decl.isPublic, ctx.moduleName, decl.name,
    decl.fields.map fun field => ⟨field.name, ctx.canon field.type⟩⟩

def defineParams (ctx : Context) (scope : Scope) : List Param → Option Scope
  | [] => some scope
  | param :: rest => do
      let defined ← Scope.define scope param.name (ctx.canon param.type) false
      defineParams ctx defined rest

/-- The body of `cn_ir_lower_function`, in the scope of the parameters. -/
def lowerBody (ctx : Context) (function : FunctionDecl) (nextTemp : Nat) (body : Block) :
    Option (Lowered IrBlock) := do
  let root ← defineParams ctx (Scope.push [] "") function.parameters
  lowerStatements ctx ctx.constUse (ctx.canon function.returnType) [] root nextTemp [] body

def lowerFunction (ctx : Context) (nextTemp : Nat) (function : FunctionDecl) :
    Option (IrFunction × Nat) := do
  let body ← function.body
  let lowered ← lowerBody ctx function nextTemp body
  return ({
    isPublic := function.isPublic
    moduleName := ctx.moduleName
    name := function.name
    returnType := ctx.canon function.returnType
    parameters := function.parameters.map fun param => ⟨param.name, ctx.canon param.type⟩
    body := lowered.value }, lowered.nextTemp)

def lowerFunctions (ctx : Context) (nextTemp : Nat) :
    List FunctionDecl → Option (List IrFunction × Nat)
  | [] => some ([], nextTemp)
  | function :: rest => do
      let first ← lowerFunction ctx nextTemp function
      let remaining ← lowerFunctions ctx first.2 rest
      return (first.1 :: remaining.1, remaining.2)

def lowerModule (ctx : Context) (nextTemp : Nat) (module : Module) : Option (IrModule × Nat) := do
  let consts ← module.program.consts.mapM (lowerConst ctx)
  let structs := module.program.structs.map (lowerStruct ctx)
  let functions ←
    if module.isBuiltinStdlib then some ([], nextTemp)
    else lowerFunctions ctx nextTemp module.program.functions
  return (⟨ctx.moduleName, consts, structs, functions.1⟩, functions.2)

def isSkippedModule (module : Module) : Bool :=
  module.isBuiltinStdlib && module.program.consts.isEmpty && module.program.structs.isEmpty

def lowerModules (project : Project) (nextTemp : Nat) :
    List (Module × ModuleId) → Option (List IrModule)
  | [] => some []
  | (module, self) :: rest =>
      if isSkippedModule module then lowerModules project nextTemp rest
      else do
        let first ← lowerModule ⟨project, self⟩ nextTemp module
        let remaining ← lowerModules project first.2 rest
        return first.1 :: remaining

def lowerProject (project : Project) : Option IrProgram :=
  (lowerModules project 0 project.modules.zipIdx).map IrProgram.mk

end Lower

end Cnegative
