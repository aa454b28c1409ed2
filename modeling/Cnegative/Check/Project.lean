import Cnegative.Check.Stmt

namespace Cnegative

namespace Check

open Checker (Resolved resolveConstInModule)

/-! Declarations: module headers, structs, signatures and constants, and the
check of a whole project. -/

/-- One `code` for every name that an earlier entry already took. -/
def duplicateErrors (code : DiagCode) (seen : List Name) : List Name → List DiagCode
  | [] => []
  | name :: rest =>
      if seen.contains name then code :: duplicateErrors code seen rest
      else duplicateErrors code (name :: seen) rest

def loadedImports (module : Module) : List ImportDecl :=
  ((module.program.imports.zip module.imports).filter fun entry => entry.2.isSome).map Prod.fst

/-- One `E3027` for every name that is also in `taken`. -/
def conflictErrors (taken names : List Name) : List DiagCode :=
  (names.filter fun name => taken.contains name).map fun _ => .E3027

def checkModuleHeader (module : Module) : List DiagCode :=
  let constNames := module.program.consts.map (·.name)
  let functionNames := module.program.functions.map (·.name)
  let aliases := (loadedImports module).map (·.aliasName)
  duplicateErrors .E3027 [] constNames ++
    duplicateErrors .E3013 [] (module.program.structs.map (·.name)) ++
    duplicateErrors .E3001 [] functionNames ++
    duplicateErrors .E3016 [] aliases ++
    conflictErrors constNames aliases ++
    conflictErrors functionNames aliases ++
    conflictErrors constNames functionNames

/-- `E3023` when a public declaration exposes a valid but private type. -/
def checkExported (ctx : Context) (isPublic : Bool) (type : TypeRef) : List DiagCode :=
  require (!(isPublic && (ctx.validate type).isEmpty && !ctx.isExportable (ctx.canon type))) .E3023

def checkPublicType (ctx : Context) (isPublic : Bool) (type : TypeRef) : List DiagCode :=
  ctx.validate type ++ checkExported ctx isPublic type

/-- One `E3003` for every pair of fields with one name. -/
def duplicateFieldErrors : List Name → List DiagCode
  | [] => []
  | name :: rest =>
      ((rest.filter fun other => other == name).map fun _ => .E3003) ++ duplicateFieldErrors rest

def checkStructDecl (ctx : Context) (decl : StructDecl) : List DiagCode :=
  duplicateFieldErrors (decl.fields.map (·.name)) ++
    decl.fields.flatMap fun field => checkPublicType ctx decl.isPublic field.type

def checkFunctionSignature (ctx : Context) (function : FunctionDecl) : List DiagCode :=
  checkPublicType ctx function.isPublic function.returnType ++
    function.parameters.flatMap fun param => checkPublicType ctx function.isPublic param.type

/-- The `sema_checked` flags and the diagnostics reported so far.  A constant is
identified by its module and name, which the header check makes unique. -/
structure ConstState where
  checked : List (ModuleId × Name)
  errors : List DiagCode

abbrev ConstM := StateM ConstState

def report (codes : List DiagCode) : ConstM Unit :=
  modify fun state => { state with errors := state.errors ++ codes }

mutual

/-- `cn_check_const_expr`; `checkDecl` is `cn_check_const_decl`. -/
def checkConstExpr (ctx : Context) (checkDecl : Resolved ConstDecl → ConstM Bool) :
    Expr → ConstM Bool
  | .int _ | .bool _ | .string _ | .null | .err => pure true
  | .name name =>
      match resolveConstInModule ctx.project ctx.self name with
      | none => do report [.E3025]; return false
      | some resolved => checkDecl resolved
  | .unary _ operand => checkConstExpr ctx checkDecl operand
  | .binary _ left right => do
      if ← checkConstExpr ctx checkDecl left then checkConstExpr ctx checkDecl right
      else return false
  | .ifExpr condition thenExpr elseExpr => do
      if ← checkConstExpr ctx checkDecl condition then
        if ← checkConstExpr ctx checkDecl thenExpr then checkConstExpr ctx checkDecl elseExpr
        else return false
      else return false
  | .arrayLiteral items _ => checkConstItems ctx checkDecl items
  | .index base index => do
      if ← checkConstExpr ctx checkDecl base then checkConstExpr ctx checkDecl index
      else return false
  | .sliceView base start stop => do
      if ← checkConstExpr ctx checkDecl base then
        if ← checkConstBound ctx checkDecl start then checkConstBound ctx checkDecl stop
        else return false
      else return false
  | .field base fieldName =>
      match ctx.sourceConst? base fieldName with
      | some resolved => checkDecl resolved
      | none => checkConstExpr ctx checkDecl base
  | .structLiteral _ _ fields => checkConstFields ctx checkDecl fields
  | .ok value => checkConstExpr ctx checkDecl value
  | .call _ _ | .alloc _ | .zalloc _ | .addr _ | .deref _ => do report [.E3025]; return false

def checkConstBound (ctx : Context) (checkDecl : Resolved ConstDecl → ConstM Bool) :
    Option Expr → ConstM Bool
  | none => pure true
  | some bound => checkConstExpr ctx checkDecl bound

def checkConstItems (ctx : Context) (checkDecl : Resolved ConstDecl → ConstM Bool) :
    List Expr → ConstM Bool
  | [] => pure true
  | item :: rest => do
      if ← checkConstExpr ctx checkDecl item then checkConstItems ctx checkDecl rest
      else return false

def checkConstFields (ctx : Context) (checkDecl : Resolved ConstDecl → ConstM Bool) :
    List (Name × Expr) → ConstM Bool
  | [] => pure true
  | (_, value) :: rest => do
      if ← checkConstExpr ctx checkDecl value then checkConstFields ctx checkDecl rest
      else return false

end

/-- What `cn_check_const_decl` reports beside the walk over the initializer. -/
def constDeclErrors (ctx : Context) (decl : ConstDecl) : List DiagCode × List DiagCode :=
  let type := ctx.canon decl.type
  let checked := checkExpr ctx [] (some type) decl.initializer
  (checkPublicType ctx decl.isPublic decl.type, checked.2 ++ require (type = checked.1) .E3004)

/-- `cn_check_const_decl`; `checking` lists the constants whose `sema_checking`
flag is set, so it never outgrows the fuel of `constFuel`. -/
def checkConstDecl (project : Project) :
    Nat → List (ModuleId × Name) → Resolved ConstDecl → ConstM Bool
  | 0, _, _ => do report [.E3026]; return false
  | fuel + 1, checking, resolved => do
      let key := (resolved.1, resolved.2.name)
      if (← get).checked.contains key then return true
      else if checking.contains key then
        report [.E3026]
        return false
      else
        let ctx : Context := ⟨project, resolved.1⟩
        let errors := constDeclErrors ctx resolved.2
        report errors.1
        let _ ← checkConstExpr ctx (checkConstDecl project fuel (key :: checking))
          resolved.2.initializer
        report errors.2
        modify fun state => { state with checked := key :: state.checked }
        return (← get).errors.isEmpty

def constFuel (project : Project) : Nat :=
  (project.modules.flatMap fun module => module.program.consts).length + 1

def checkConsts (project : Project) (errors : List DiagCode) : List DiagCode :=
  let decls : List (Resolved ConstDecl) := project.modules.zipIdx.flatMap fun entry =>
    entry.1.program.consts.map fun decl => (entry.2, decl)
  let run : ConstM Unit := decls.forM fun resolved => do
    let _ ← checkConstDecl project (constFuel project) [] resolved
  (run ⟨[], errors⟩).2.errors

def checkModuleDecls (ctx : Context) (module : Module) : List DiagCode :=
  checkModuleHeader module ++
    module.program.structs.flatMap (checkStructDecl ctx) ++
    module.program.functions.flatMap (checkFunctionSignature ctx)

def checkModuleFunctions (ctx : Context) (module : Module) : List DiagCode :=
  module.program.functions.flatMap (checkFunction ctx)

/-- `cn_sema_check_project`: the project is accepted when no error is left. -/
def checkProject (project : Project) : List DiagCode :=
  let declErrors := project.modules.zipIdx.flatMap fun entry =>
    checkModuleDecls ⟨project, entry.2⟩ entry.1
  checkConsts project declErrors ++
    project.modules.zipIdx.flatMap fun entry =>
      checkModuleFunctions ⟨project, entry.2⟩ entry.1

def Accepted (project : Project) : Prop :=
  checkProject project = []

instance (project : Project) : Decidable (Accepted project) :=
  inferInstanceAs (Decidable (_ = _))

end Check

end Cnegative
