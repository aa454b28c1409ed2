import Cnegative.Syntax.Ast

namespace Cnegative

/-! Name resolution of `typecheck.c`: symbol maps filled once per module. -/

/-- `cn_name_map` as the finite map it implements; the newest entry of a key is
the one a lookup sees. -/
structure NameMap (α : Type) where
  entries : List (Name × α)

namespace NameMap

variable {α : Type}

def empty : NameMap α := ⟨[]⟩

/-- `cn_name_map_lookup_entry`. -/
def lookup (map : NameMap α) (key : Name) : Option α :=
  (map.entries.find? (fun entry => entry.1 == key)).map Prod.snd

/-- `cn_name_map_insert`: without `replace` an occupied key keeps its value. -/
def insert (map : NameMap α) (key : Name) (value : α) (replace : Bool) : NameMap α :=
  if !replace && (map.lookup key).isSome then map else ⟨(key, value) :: map.entries⟩

@[simp] theorem lookup_empty (key : Name) : (empty : NameMap α).lookup key = none := rfl

@[simp] theorem lookup_insert_replace (map : NameMap α) (key other : Name) (value : α) :
    (map.insert key value true).lookup other =
      if key = other then some value else map.lookup other := by
  by_cases heq : key = other
  · simp [insert, lookup, heq]
  · simp [insert, lookup, heq]

/-- Fills a map the way `cn_get_module_symbol_cache` does: one insertion with
replacement for each declaration, in order. -/
def ofDecls (key : α → Name) (decls : List α) : NameMap α :=
  decls.foldl (fun map decl => map.insert (key decl) decl true) empty

theorem lookup_foldl_insert (key : α → Name) (decls : List α) (map : NameMap α) (name : Name) :
    (decls.foldl (fun map decl => map.insert (key decl) decl true) map).lookup name =
      (decls.reverse.find? (fun decl => key decl == name)).or (map.lookup name) := by
  induction decls generalizing map with
  | nil => simp
  | cons decl rest ih =>
      simp only [List.foldl_cons, ih, List.reverse_cons, List.find?_append,
        lookup_insert_replace]
      by_cases heq : key decl = name
      · simp [heq]
      · simp [heq]

theorem lookup_ofDecls (key : α → Name) (decls : List α) (name : Name) :
    (ofDecls key decls).lookup name =
      decls.reverse.find? (fun decl => key decl == name) := by
  simp [ofDecls, lookup_foldl_insert]

end NameMap

namespace Checker

def localFunctions (program : Program) : NameMap FunctionDecl :=
  NameMap.ofDecls (·.name) program.functions

def publicFunctions (program : Program) : NameMap FunctionDecl :=
  NameMap.ofDecls (·.name) (program.functions.filter (·.isPublic))

def localConsts (program : Program) : NameMap ConstDecl :=
  NameMap.ofDecls (·.name) program.consts

def publicConsts (program : Program) : NameMap ConstDecl :=
  NameMap.ofDecls (·.name) (program.consts.filter (·.isPublic))

def localStructs (program : Program) : NameMap StructDecl :=
  NameMap.ofDecls (·.name) program.structs

def publicStructs (program : Program) : NameMap StructDecl :=
  NameMap.ofDecls (·.name) (program.structs.filter (·.isPublic))

/-- The `imports` map: for each import its module name, then its alias, both
with replacement, so a later import takes over a key of an earlier one. -/
def importIndices (program : Program) : NameMap Nat :=
  program.imports.zipIdx.foldl
    (fun map entry =>
      (map.insert entry.1.moduleName entry.2 true).insert entry.1.aliasName entry.2 true)
    NameMap.empty

variable (project : Project)

def findImportedModule (module : Module) (name : Name) : Option ModuleId :=
  match (importIndices module.program).lookup name with
  | none => none
  | some index => (module.imports[index]?).join

/-- `cn_resolve_source_named_module`; `self` is `ctx->module`. -/
def resolveSourceNamedModule (self : ModuleId) (module : Module) (moduleName : Name) :
    Option ModuleId :=
  if moduleName = "" ∨ moduleName = module.name then some self
  else findImportedModule module moduleName

def resolveCanonicalNamedModule (self : ModuleId) (module : Module) (moduleName : Name) :
    Option ModuleId :=
  if moduleName = "" ∨ moduleName = module.name then some self
  else (project.findModuleByName moduleName).or (findImportedModule module moduleName)

abbrev Resolved (α : Type) := ModuleId × α

def resolveConstInModule (id : ModuleId) (name : Name) : Option (Resolved ConstDecl) := do
  let module ← project.modules[id]?
  let decl ← (localConsts module.program).lookup name
  return (id, decl)

def resolveSourceNamedConst (self : ModuleId) (moduleName constName : Name) :
    Option (Resolved ConstDecl) := do
  let module ← project.modules[self]?
  let id ← resolveSourceNamedModule self module moduleName
  if id = self then resolveConstInModule project id constName
  else
    let other ← project.modules[id]?
    let decl ← (publicConsts other.program).lookup constName
    return (id, decl)

def resolveStructInModule (id : ModuleId) (name : Name) : Option (Resolved StructDecl) := do
  let module ← project.modules[id]?
  let decl ← (localStructs module.program).lookup name
  return (id, decl)

def resolveSourceNamedStruct (self : ModuleId) (moduleName typeName : Name) :
    Option (Resolved StructDecl) := do
  let module ← project.modules[self]?
  let id ← resolveSourceNamedModule self module moduleName
  if id = self then resolveStructInModule project id typeName
  else
    let other ← project.modules[id]?
    let decl ← (publicStructs other.program).lookup typeName
    return (id, decl)

def resolveCanonicalNamedStruct (self : ModuleId) (moduleName typeName : Name) :
    Option (Resolved StructDecl) := do
  let module ← project.modules[self]?
  let id ← resolveCanonicalNamedModule project self module moduleName
  resolveStructInModule project id typeName

/-- The callee of `name(...)` in `cn_check_call`, once the builtin names are
excluded. -/
def resolveLocalFunction (self : ModuleId) (name : Name) : Option (Resolved FunctionDecl) := do
  let module ← project.modules[self]?
  let decl ← (localFunctions module.program).lookup name
  return (self, decl)

/-- The callee of `moduleName.functionName(...)` in `cn_check_call`. -/
def resolveModuleFunction (self : ModuleId) (moduleName functionName : Name) :
    Option (Resolved FunctionDecl) := do
  let module ← project.modules[self]?
  let id ← findImportedModule module moduleName
  let other ← project.modules[id]?
  let decl ← (publicFunctions other.program).lookup functionName
  return (id, decl)

end Checker

open Checker (Resolved resolveSourceNamedConst resolveSourceNamedStruct resolveConstInModule
  resolveStructInModule resolveLocalFunction resolveModuleFunction)

/-! What a module may use of another one: the declarations that are public there. -/

def Accessible (self id : ModuleId) (isPublic : Bool) : Prop :=
  id = self ∨ isPublic = true

/-- `resolved` stands in the declarations of its module. -/
def Declared {α : Type} (project : Project) (decls : Program → List α) (resolved : Resolved α) :
    Prop :=
  ∃ module, project.modules[resolved.1]? = some module ∧ resolved.2 ∈ decls module.program

/-! Only declarations of the module itself and public ones answer a name in source. -/

theorem NameMap.mem_of_lookup_ofDecls {α : Type} {key : α → Name} {decls : List α} {name : Name}
    {decl : α} (hlookup : (NameMap.ofDecls key decls).lookup name = some decl) :
    decl ∈ decls ∧ key decl = name := by
  rw [NameMap.lookup_ofDecls] at hlookup
  have hkey := List.find?_some hlookup
  exact ⟨List.mem_reverse.mp (List.mem_of_find?_eq_some hlookup), beq_iff_eq.mp hkey⟩

section Resolvers

variable {project : Project} {self : ModuleId}

theorem resolveConstInModule_spec {id : ModuleId} {name : Name} {resolved : Resolved ConstDecl}
    (hresolved : resolveConstInModule project id name = some resolved) :
    resolved.1 = id ∧ resolved.2.name = name ∧ Declared project Program.consts resolved := by
  simp only [resolveConstInModule, Option.bind_eq_bind, Option.bind_eq_some_iff,
    Option.pure_def, Option.some.injEq] at hresolved
  obtain ⟨module, hmodule, decl, hdecl, rfl⟩ := hresolved
  obtain ⟨hmem, hname⟩ := NameMap.mem_of_lookup_ofDecls hdecl
  exact ⟨rfl, hname, module, hmodule, hmem⟩

theorem resolveStructInModule_spec {id : ModuleId} {name : Name} {resolved : Resolved StructDecl}
    (hresolved : resolveStructInModule project id name = some resolved) :
    resolved.1 = id ∧ resolved.2.name = name ∧ Declared project Program.structs resolved := by
  simp only [resolveStructInModule, Option.bind_eq_bind, Option.bind_eq_some_iff,
    Option.pure_def, Option.some.injEq] at hresolved
  obtain ⟨module, hmodule, decl, hdecl, rfl⟩ := hresolved
  obtain ⟨hmem, hname⟩ := NameMap.mem_of_lookup_ofDecls hdecl
  exact ⟨rfl, hname, module, hmodule, hmem⟩

theorem resolveSourceNamedConst_accessible {qualifier name : Name}
    {resolved : Resolved ConstDecl}
    (hresolved : resolveSourceNamedConst project self qualifier name = some resolved) :
    Declared project Program.consts resolved ∧
      Accessible self resolved.1 resolved.2.isPublic := by
  simp only [resolveSourceNamedConst, Option.bind_eq_bind, Option.bind_eq_some_iff,
    Option.pure_def] at hresolved
  obtain ⟨module, -, id, -, hfound⟩ := hresolved
  split at hfound
  · rename_i hself
    obtain ⟨hid, -, hdeclared⟩ := resolveConstInModule_spec hfound
    exact ⟨hdeclared, Or.inl (hid.trans hself)⟩
  · simp only [Option.bind_eq_some_iff, Option.some.injEq] at hfound
    obtain ⟨other, hother, decl, hdecl, rfl⟩ := hfound
    obtain ⟨hmem, -⟩ := NameMap.mem_of_lookup_ofDecls hdecl
    obtain ⟨hconst, hpublic⟩ := List.mem_filter.mp hmem
    exact ⟨⟨other, hother, hconst⟩, Or.inr hpublic⟩

theorem resolveSourceNamedStruct_accessible {qualifier name : Name}
    {resolved : Resolved StructDecl}
    (hresolved : resolveSourceNamedStruct project self qualifier name = some resolved) :
    Declared project Program.structs resolved ∧ resolved.2.name = name ∧
      Accessible self resolved.1 resolved.2.isPublic := by
  simp only [resolveSourceNamedStruct, Option.bind_eq_bind, Option.bind_eq_some_iff,
    Option.pure_def] at hresolved
  obtain ⟨module, -, id, -, hfound⟩ := hresolved
  split at hfound
  · rename_i hself
    obtain ⟨hid, hname, hdeclared⟩ := resolveStructInModule_spec hfound
    exact ⟨hdeclared, hname, Or.inl (hid.trans hself)⟩
  · simp only [Option.bind_eq_some_iff, Option.some.injEq] at hfound
    obtain ⟨other, hother, decl, hdecl, rfl⟩ := hfound
    obtain ⟨hmem, hname⟩ := NameMap.mem_of_lookup_ofDecls hdecl
    obtain ⟨hstruct, hpublic⟩ := List.mem_filter.mp hmem
    exact ⟨⟨other, hother, hstruct⟩, hname, Or.inr hpublic⟩

theorem resolveModuleFunction_accessible {qualifier name : Name}
    {resolved : Resolved FunctionDecl}
    (hresolved : resolveModuleFunction project self qualifier name = some resolved) :
    Declared project Program.functions resolved ∧
      Accessible self resolved.1 resolved.2.isPublic := by
  simp only [resolveModuleFunction, Option.bind_eq_bind, Option.bind_eq_some_iff,
    Option.pure_def, Option.some.injEq] at hresolved
  obtain ⟨module, -, id, -, other, hother, decl, hdecl, rfl⟩ := hresolved
  obtain ⟨hmem, -⟩ := NameMap.mem_of_lookup_ofDecls hdecl
  obtain ⟨hfunction, hpublic⟩ := List.mem_filter.mp hmem
  exact ⟨⟨other, hother, hfunction⟩, Or.inr hpublic⟩

theorem resolveLocalFunction_accessible {name : Name} {resolved : Resolved FunctionDecl}
    (hresolved : resolveLocalFunction project self name = some resolved) :
    Declared project Program.functions resolved ∧
      Accessible self resolved.1 resolved.2.isPublic := by
  simp only [resolveLocalFunction, Option.bind_eq_bind, Option.bind_eq_some_iff,
    Option.pure_def, Option.some.injEq] at hresolved
  obtain ⟨module, hmodule, decl, hdecl, rfl⟩ := hresolved
  obtain ⟨hmem, -⟩ := NameMap.mem_of_lookup_ofDecls hdecl
  exact ⟨⟨module, hmodule, hmem⟩, Or.inl rfl⟩

end Resolvers

end Cnegative
