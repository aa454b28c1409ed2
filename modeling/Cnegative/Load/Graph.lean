import Mathlib.Logic.Relation
import Cnegative.Library.Rank
import Cnegative.Load.Returns

namespace Cnegative

namespace Load

/-! The import graph of the files. A file is known by the path that the search gives,
as in the loader; an import of a builtin module leads to no file. -/

def importTarget (fs : FileSystem) (roots : Roots) (directory : Text) (decl : ImportDecl) :
    Option Text :=
  if isBuiltinStdlibModuleName decl.moduleName then none
  else (pathResolveImport fs roots directory decl.moduleName).resolvedPath

def importTargets (fs : FileSystem) (roots : Roots) (path : Text) : List Text :=
  match fs.files.lookup path with
  | some (some source) => source.imports.filterMap (importTarget fs roots (pathDirectory path))
  | _ => []

def Imports (fs : FileSystem) (roots : Roots) (path target : Text) : Prop :=
  target ∈ importTargets fs roots path

def Reachable (fs : FileSystem) (entry path : Text) : Prop :=
  Relation.ReflTransGen (Imports fs (rootsOf entry)) entry path

def ImportCycle (fs : FileSystem) (entry : Text) : Prop :=
  ∃ path, Reachable fs entry path ∧ Relation.TransGen (Imports fs (rootsOf entry)) path path

/-- Every file that `entry` reaches parses, its imports resolve, and no two of them share a
canonical name. -/
structure Loadable (fs : FileSystem) (entry : Text) : Prop where
  parses : ∀ path, Reachable fs entry path → ∃ source,
    fs.files.lookup path = some (some source) ∧ source.lexerErrors = [] ∧ source.parserErrors = []
  resolves : ∀ path source, Reachable fs entry path →
    fs.files.lookup path = some (some source) → ∀ decl ∈ source.imports,
      isBuiltinStdlibModuleName decl.moduleName = false →
        (importTarget fs (rootsOf entry) (pathDirectory path) decl).isSome = true
  names : ∀ path other, Reachable fs entry path → Reachable fs entry other →
    projectModuleNameFromPath (rootsOf entry) path =
      projectModuleNameFromPath (rootsOf entry) other → path = other

def ImportsBuiltin (fs : FileSystem) (entry name : Text) : Prop :=
  isBuiltinStdlibModuleName name = true ∧ ∃ path source, Reachable fs entry path ∧
    fs.files.lookup path = some (some source) ∧ ∃ decl ∈ source.imports, decl.moduleName = name

def BuiltinsApart (fs : FileSystem) (entry : Text) : Prop :=
  ∀ path, Reachable fs entry path →
    ¬ ImportsBuiltin fs entry (projectModuleNameFromPath (rootsOf entry) path)

/-! What the modules of a project are to say about the files. -/

/-- The module that an import of a file in `directory` stands for. -/
def Denotes (fs : FileSystem) (roots : Roots) (directory : Text) (decl : ImportDecl)
    (target : Module) : Prop :=
  if isBuiltinStdlibModuleName decl.moduleName then
    target.isBuiltinStdlib = true ∧ target.name = decl.moduleName
  else
    target.isBuiltinStdlib = false ∧ importTarget fs roots directory decl = some target.path

def LinksTo (fs : FileSystem) (roots : Roots) (modules : List Module) (directory : Text)
    (decl : ImportDecl) (link : Option ModuleId) : Prop :=
  ∃ (id : ModuleId) (target : Module), link = some id ∧ modules[id]? = some target ∧
    Denotes fs roots directory decl target

def Linked (fs : FileSystem) (roots : Roots) (modules : List Module) (module : Module) : Prop :=
  ∃ source, fs.files.lookup module.path = some (some source) ∧
    module.program = some source.imports ∧
    List.Forall₂ (LinksTo fs roots modules module.directory) source.imports module.imports

def Extends (modules later : List Module) : Prop :=
  ∀ (id : ModuleId) (module : Module), modules[id]? = some module →
    ∃ same : Module, later[id]? = some same ∧ same.isBuiltinStdlib = module.isBuiltinStdlib ∧ same.name = module.name ∧
    same.path = module.path

theorem Extends.append (modules added : List Module) : Extends modules (modules ++ added) := by
  intro id module hmodule
  have hlength := (List.getElem?_eq_some_iff.mp hmodule).1
  exact ⟨module, by rwa [List.getElem?_append_left hlength], rfl, rfl, rfl⟩

theorem Extends.replace (before : List Module) {module changed : Module} (after : List Module)
    (hbuiltin : changed.isBuiltinStdlib = module.isBuiltinStdlib)
    (hname : changed.name = module.name) (hpath : changed.path = module.path) :
    Extends (before ++ module :: after) (before ++ changed :: after) := by
  intro id other hother
  rcases Nat.lt_trichotomy id before.length with hless | heq | hgreater
  · rw [List.getElem?_append_left hless] at hother ⊢
    exact ⟨other, hother, rfl, rfl, rfl⟩
  · subst heq
    simp only [List.getElem?_append_right (Nat.le_refl _), Nat.sub_self, List.getElem?_cons_zero,
      Option.some.injEq] at hother ⊢
    subst hother
    exact ⟨changed, rfl, hbuiltin, hname, hpath⟩
  · obtain ⟨offset, rfl⟩ := Nat.exists_eq_add_of_lt hgreater
    have hsplit : before.length + offset + 1 - before.length = offset + 1 := by omega
    rw [List.getElem?_append_right (by omega), hsplit, List.getElem?_cons_succ] at hother ⊢
    exact ⟨other, hother, rfl, rfl, rfl⟩

theorem LinksTo.mono {fs : FileSystem} {roots : Roots} {modules later : List Module}
    (hextends : Extends modules later) {directory : Text} {decl : ImportDecl}
    {link : Option ModuleId} (hlink : LinksTo fs roots modules directory decl link) :
    LinksTo fs roots later directory decl link := by
  obtain ⟨id, target, hid, htarget, hdenotes⟩ := hlink
  obtain ⟨same, hsame, hbuiltin, hname, hpath⟩ := hextends id target htarget
  refine ⟨id, same, hid, hsame, ?_⟩
  unfold Denotes at hdenotes ⊢
  rwa [hbuiltin, hname, hpath]

theorem Linked.mono {fs : FileSystem} {roots : Roots} {modules later : List Module}
    (hextends : Extends modules later) {module : Module}
    (hlinked : Linked fs roots modules module) : Linked fs roots later module := by
  obtain ⟨source, hsource, hprogram, hlinks⟩ := hlinked
  exact ⟨source, hsource, hprogram, hlinks.imp fun _ _ hlink => hlink.mono hextends⟩

/-! The search gives absolute paths. -/

def ImportResolution.IsAbsolute (resolution : ImportResolution) : Prop :=
  ∀ path ∈ resolution.resolvedPath, pathIsAbsolute path = true

theorem importResolutionTryRoot_isAbsolute {root : Text} (hroot : pathIsAbsolute root = true)
    {resolution : ImportResolution} (hresolution : resolution.IsAbsolute) (fs : FileSystem)
    (label importName : Text) :
    (importResolutionTryRoot fs resolution label root importName).IsAbsolute := by
  have hbuilt : ∀ (searched extension : Text), ImportResolution.IsAbsolute
      ⟨some (pathBuildImportPathFromRoot root importName extension), searched⟩ := by
    intro searched extension path hpath
    rw [← Option.some.inj hpath]
    exact pathBuildImportPathFromRoot_isAbsolute hroot _ _
  simp only [importResolutionTryRoot]
  split
  · exact hbuilt _ _
  · split
    · exact hbuilt _ _
    · exact hresolution

theorem pathResolveImport_isAbsolute {roots : Roots}
    (hproject : pathIsAbsolute roots.projectRoot = true)
    (hvendor : pathIsAbsolute roots.vendorRoot = true) {directory : Text}
    (hdirectory : pathIsAbsolute directory = true) (fs : FileSystem) (importName : Text) :
    (pathResolveImport fs roots directory importName).IsAbsolute := by
  have hfirst := @importResolutionTryRoot_isAbsolute _ hproject ⟨none, []⟩
    (fun path hpath => by simp at hpath) fs (Name.text "project root") importName
  have hsecond := importResolutionTryRoot_isAbsolute hvendor hfirst fs (Name.text "vendor root")
    importName
  simp only [pathResolveImport]
  split
  · exact hfirst
  · split
    · exact hsecond
    · split
      · exact importResolutionTryRoot_isAbsolute hdirectory hsecond fs _ importName
      · exact hsecond

theorem Imports.mem_files {fs : FileSystem} {roots : Roots} {path target : Text}
    (himports : Imports fs roots path target) : path ∈ fs.files.map Prod.fst := by
  unfold Imports importTargets at himports
  split at himports
  · exact mem_files_of_lookup ‹_›
  · simp at himports

theorem mem_importTargets {fs : FileSystem} {roots : Roots} {path target : Text}
    {source : SourceFile} (hsource : fs.files.lookup path = some (some source)) :
    Imports fs roots path target ↔
      ∃ decl ∈ source.imports, importTarget fs roots (pathDirectory path) decl = some target := by
  simp [Imports, importTargets, hsource]

section Reachable

variable {fs : FileSystem} {entry : Text}

theorem imports_isAbsolute (hentry : pathIsAbsolute entry = true) {path target : Text}
    (hpath : pathIsAbsolute path = true) (himports : Imports fs (rootsOf entry) path target) :
    pathIsAbsolute target = true := by
  have hproject := pathDirectory_isAbsolute hentry
  unfold Imports importTargets at himports
  split at himports
  · obtain ⟨decl, -, htarget⟩ := List.mem_filterMap.mp himports
    unfold importTarget at htarget
    split at htarget
    · simp at htarget
    · exact pathResolveImport_isAbsolute hproject (pathJoinComponent_isAbsolute hproject _)
        (pathDirectory_isAbsolute hpath) fs _ _ htarget
  · simp at himports

theorem Reachable.isAbsolute (hentry : pathIsAbsolute entry = true) {path : Text}
    (hreach : Reachable fs entry path) : pathIsAbsolute path = true := by
  induction hreach with
  | refl => exact hentry
  | tail _ hstep ih => exact imports_isAbsolute hentry ih hstep

/-- The reachable files lie in any set of files closed under imports. -/
theorem Reachable.mem_of_closed {paths : List Text} (hentry : entry ∈ paths)
    (hclosed : ∀ path ∈ paths, ∀ target ∈ importTargets fs (rootsOf entry) path, target ∈ paths)
    {path : Text} (hreach : Reachable fs entry path) : path ∈ paths := by
  induction hreach with
  | refl => exact hentry
  | tail _ hstep ih => exact hclosed _ ih _ hstep

end Reachable

/-! The hypotheses on concrete files can be computed. -/

def importsOf (fs : FileSystem) (path : Text) : Option (List ImportDecl) :=
  match fs.files.lookup path with
  | some (some source) =>
      if source.lexerErrors.isEmpty && source.parserErrors.isEmpty then some source.imports else none
  | _ => none

theorem importsOf_eq_some {fs : FileSystem} {path : Text} {imports : List ImportDecl}
    (himports : importsOf fs path = some imports) : ∃ source,
      fs.files.lookup path = some (some source) ∧ source.lexerErrors = [] ∧
        source.parserErrors = [] ∧ source.imports = imports := by
  unfold importsOf at himports
  split at himports
  · rename_i source hsource
    split at himports
    · rename_i hclean
      simp only [Bool.and_eq_true, List.isEmpty_iff] at hclean
      exact ⟨source, hsource, hclean.1, hclean.2, Option.some.inj himports⟩
    · simp at himports
  · simp at himports

/-- A closed set of files that parse, resolve and have names of their own. -/
structure Closed (fs : FileSystem) (entry : Text) (paths : List Text) : Prop where
  start : entry ∈ paths
  closed : ∀ path ∈ paths, ∀ target ∈ importTargets fs (rootsOf entry) path, target ∈ paths
  parses : ∀ path ∈ paths, (importsOf fs path).isSome = true
  resolves : ∀ path ∈ paths, ∀ decl ∈ (importsOf fs path).getD [],
    isBuiltinStdlibModuleName decl.moduleName = false →
      (importTarget fs (rootsOf entry) (pathDirectory path) decl).isSome = true
  names : ∀ path ∈ paths, ∀ other ∈ paths,
    projectModuleNameFromPath (rootsOf entry) path =
      projectModuleNameFromPath (rootsOf entry) other → path = other

theorem Closed.loadable {fs : FileSystem} {entry : Text} {paths : List Text}
    (hclosed : Closed fs entry paths) : Loadable fs entry where
  parses path hreach := by
    have hmem := hreach.mem_of_closed hclosed.start hclosed.closed
    obtain ⟨imports, himports⟩ := Option.isSome_iff_exists.mp (hclosed.parses path hmem)
    obtain ⟨source, hsource, hlexer, hparser, -⟩ := importsOf_eq_some himports
    exact ⟨source, hsource, hlexer, hparser⟩
  resolves path source hreach hsource decl hdecl hkind := by
    have hmem := hreach.mem_of_closed hclosed.start hclosed.closed
    obtain ⟨imports, himports⟩ := Option.isSome_iff_exists.mp (hclosed.parses path hmem)
    obtain ⟨same, hsame, -, -, rfl⟩ := importsOf_eq_some himports
    rw [hsource, Option.some.injEq, Option.some.injEq] at hsame
    subst hsame
    exact hclosed.resolves path hmem decl (by simpa [himports] using hdecl) hkind
  names path other hreach hother :=
    hclosed.names path (hreach.mem_of_closed hclosed.start hclosed.closed) other
      (hother.mem_of_closed hclosed.start hclosed.closed)

end Load

end Cnegative
