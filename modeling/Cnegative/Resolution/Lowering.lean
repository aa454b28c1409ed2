import Cnegative.Resolution.Checker

namespace Cnegative

/-! Name resolution of `lower.c`: linear searches over the declaration lists. -/

namespace Lowering

open Checker (Resolved)

def findLocalFunction (program : Program) (name : Name) : Option FunctionDecl :=
  program.functions.find? (fun decl => decl.name == name)

def findPublicFunction (program : Program) (name : Name) : Option FunctionDecl :=
  program.functions.find? (fun decl => decl.isPublic && decl.name == name)

def findConst (program : Program) (name : Name) : Option ConstDecl :=
  program.consts.find? (fun decl => decl.name == name)

def findPublicConst (program : Program) (name : Name) : Option ConstDecl :=
  program.consts.find? (fun decl => decl.isPublic && decl.name == name)

def findStruct (program : Program) (name : Name) : Option StructDecl :=
  program.structs.find? (fun decl => decl.name == name)

def findPublicStruct (program : Program) (name : Name) : Option StructDecl :=
  program.structs.find? (fun decl => decl.isPublic && decl.name == name)

/-- `cn_ir_find_import_decl`: the first import whose alias or module name is `name`. -/
def findImportDecl (program : Program) (name : Name) : Option Nat :=
  program.imports.findIdx? (fun decl => decl.aliasName == name || decl.moduleName == name)

variable (project : Project)

def findImportedModule (module : Module) (name : Name) : Option ModuleId :=
  match findImportDecl module.program name with
  | none => none
  | some index => (module.imports[index]?).join

def resolveSourceNamedModule (self : ModuleId) (module : Module) (moduleName : Name) :
    Option ModuleId :=
  if moduleName = "" ∨ moduleName = module.name then some self
  else findImportedModule module moduleName

def resolveCanonicalNamedModule (self : ModuleId) (module : Module) (moduleName : Name) :
    Option ModuleId :=
  if moduleName = "" ∨ moduleName = module.name then some self
  else (project.findModuleByName moduleName).or (findImportedModule module moduleName)

def resolveConstInModule (id : ModuleId) (name : Name) : Option (Resolved ConstDecl) := do
  let module ← project.modules[id]?
  let decl ← findConst module.program name
  return (id, decl)

def resolveSourceNamedConst (self : ModuleId) (moduleName constName : Name) :
    Option (Resolved ConstDecl) := do
  let module ← project.modules[self]?
  let id ← resolveSourceNamedModule self module moduleName
  if id = self then resolveConstInModule project id constName
  else
    let other ← project.modules[id]?
    let decl ← findPublicConst other.program constName
    return (id, decl)

def resolveStructInModule (id : ModuleId) (name : Name) : Option (Resolved StructDecl) := do
  let module ← project.modules[id]?
  let decl ← findStruct module.program name
  return (id, decl)

def resolveSourceNamedStruct (self : ModuleId) (moduleName typeName : Name) :
    Option (Resolved StructDecl) := do
  let module ← project.modules[self]?
  let id ← resolveSourceNamedModule self module moduleName
  if id = self then resolveStructInModule project id typeName
  else
    let other ← project.modules[id]?
    let decl ← findPublicStruct other.program typeName
    return (id, decl)

def resolveCanonicalNamedStruct (self : ModuleId) (moduleName typeName : Name) :
    Option (Resolved StructDecl) := do
  let module ← project.modules[self]?
  let id ← resolveCanonicalNamedModule project self module moduleName
  resolveStructInModule project id typeName

/-- The local callee of `cn_ir_lower_call`. -/
def resolveLocalFunction (self : ModuleId) (name : Name) : Option (Resolved FunctionDecl) := do
  let module ← project.modules[self]?
  let decl ← findLocalFunction module.program name
  return (self, decl)

/-- The module-qualified callee of `cn_ir_lower_call`. -/
def resolveModuleFunction (self : ModuleId) (moduleName functionName : Name) :
    Option (Resolved FunctionDecl) := do
  let module ← project.modules[self]?
  let id ← findImportedModule module moduleName
  let other ← project.modules[id]?
  let decl ← findPublicFunction other.program functionName
  return (id, decl)

end Lowering

end Cnegative
