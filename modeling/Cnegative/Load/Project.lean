import Cnegative.Load.Path

namespace Cnegative

namespace Load

/-! What lies outside the loader: the files, and what the lexer and the parser make of
each. -/

structure ImportDecl where
  moduleName : Text
  offset : Nat
  deriving DecidableEq

inductive DiagCode where
  | E3017
  | E3018
  /-- A code of the lexer or of the parser. -/
  | source (code : Text)
  deriving DecidableEq

/-- `source` is the path of the file the diagnostic points into. -/
structure Diagnostic where
  source : Option Text
  code : DiagCode
  offset : Nat
  message : Text
  deriving DecidableEq

structure SourceFile where
  lexerErrors : List Diagnostic
  parserErrors : List Diagnostic
  imports : List ImportDecl
  deriving DecidableEq

/-- `none` is a file that opens but cannot be read. -/
structure FileSystem where
  files : List (Text × Option SourceFile)
  cwd : Option Text
  cwd_absolute : ∀ directory ∈ cwd, pathIsAbsolute directory = true

namespace FileSystem

theorem absolute_of_none : ∀ directory ∈ (none : Option Text), pathIsAbsolute directory = true := by
  simp

def fileExists (fs : FileSystem) (path : Text) : Bool :=
  (fs.files.lookup path).isSome

/-- `cn_source_load` with an error buffer of 256 bytes. -/
def sourceLoad (fs : FileSystem) (path : Text) : Except Text SourceFile :=
  match fs.files.lookup path with
  | none => .error ((Name.text "could not open '" ++ path ++ Name.text "'").take 255)
  | some none => .error ((Name.text "could not read '" ++ path ++ Name.text "'").take 255)
  | some (some source) => .ok source

end FileSystem

/-! Import resolution. -/

structure ImportResolution where
  resolvedPath : Option Text
  searchedPaths : Text

def ImportResolution.addAttempt (resolution : ImportResolution) (label path : Text) :
    ImportResolution :=
  { resolution with
    searchedPaths := resolution.searchedPaths ++ Name.text "  - " ++ label ++ Name.text ": " ++
      path ++ Name.text "\n" }

def importResolutionTryRoot (fs : FileSystem) (resolution : ImportResolution)
    (label root importName : Text) : ImportResolution :=
  let preferred := pathBuildImportPathFromRoot root importName (Name.text ".cneg")
  let legacy := pathBuildImportPathFromRoot root importName (Name.text ".cn")
  let resolution := resolution.addAttempt label preferred
  if resolution.resolvedPath.isNone && fs.fileExists preferred then
    { resolution with resolvedPath := some preferred }
  else
    let resolution := resolution.addAttempt label legacy
    if resolution.resolvedPath.isNone && fs.fileExists legacy then
      { resolution with resolvedPath := some legacy }
    else resolution

def pathResolveImport (fs : FileSystem) (roots : Roots) (directory importName : Text) :
    ImportResolution :=
  let resolution := importResolutionTryRoot fs ⟨none, []⟩ (Name.text "project root")
    roots.projectRoot importName
  if resolution.resolvedPath.isSome then resolution
  else
    let resolution := importResolutionTryRoot fs resolution (Name.text "vendor root")
      roots.vendorRoot importName
    if resolution.resolvedPath.isSome then resolution
    else if directory != roots.projectRoot && directory != roots.vendorRoot then
      importResolutionTryRoot fs resolution (Name.text "legacy relative") directory importName
    else resolution

/-! The project while it is loaded. A `cn_module *` is its place in `modules`, which only
grows. -/

abbrev ModuleId := Nat

/-- `program` is `none` until the file is parsed. -/
structure Module where
  isBuiltinStdlib : Bool
  name : Text
  path : Text
  directory : Text
  program : Option (List ImportDecl)
  imports : List (Option ModuleId)
  loading : Bool
  deriving DecidableEq

structure State where
  modules : List Module
  diagnostics : List Diagnostic

namespace State

def report (state : State) (source : Option Text) (code : DiagCode) (offset : Nat)
    (message : Text) : State :=
  { state with diagnostics := state.diagnostics ++ [⟨source, code, offset, message⟩] }

def hasError (state : State) : Bool :=
  !state.diagnostics.isEmpty

def pushModule (state : State) (module : Module) : State :=
  { state with modules := state.modules ++ [module] }

def modifyModule (state : State) (id : ModuleId) (change : Module → Module) : State :=
  { state with modules := state.modules.modify id change }

/-- `module->imports[index] = …`. -/
def setImport (state : State) (id : ModuleId) (index : Nat) (link : Option ModuleId) : State :=
  state.modifyModule id fun module => { module with imports := module.imports.set index link }

/-- The parsed program and the zeroed array of its imports. -/
def setProgram (state : State) (id : ModuleId) (imports : List ImportDecl) : State :=
  state.modifyModule id fun module =>
    { module with program := some imports, imports := List.replicate imports.length none }

def setLoaded (state : State) (id : ModuleId) : State :=
  state.modifyModule id fun module => { module with loading := false }

def addDiagnostics (state : State) (diagnostics : List Diagnostic) : State :=
  { state with diagnostics := state.diagnostics ++ diagnostics }

def findModuleByPath (state : State) (path : Text) : Option ModuleId :=
  state.modules.findIdx? fun module => module.path == path

def findModuleByName (state : State) (name : Text) : Option Module :=
  state.modules.find? fun module => module.name == name

end State

def moduleCreate (roots : Roots) (resolvedPath : Text) : Module where
  isBuiltinStdlib := false
  name := projectModuleNameFromPath roots resolvedPath
  path := resolvedPath
  directory := pathDirectory resolvedPath
  program := none
  imports := []
  loading := false

def builtinModuleCreate (moduleName : Text) : Module where
  isBuiltinStdlib := true
  name := moduleName
  path := Name.text "<stdlib:" ++ moduleName ++ Name.text ">"
  directory := Name.text "<stdlib>"
  program := some []
  imports := []
  loading := false

def loadBuiltinModule (state : State) (moduleName : Text) : State × ModuleId :=
  match state.modules.findIdx? fun module => module.isBuiltinStdlib && module.name == moduleName with
  | some id => (state, id)
  | none => (state.pushModule (builtinModuleCreate moduleName), state.modules.length)

/-- The place of the import that asks for a module. -/
structure ImportSite where
  source : Option Text
  offset : Nat

/-- The answer of `cn_project_load_module`; without one the fuel has run out. -/
abbrev Loaded := Option (State × Option ModuleId)

/-- The loop over the imports of the module `id`. -/
def loadImports (fs : FileSystem) (roots : Roots) (load : State → Text → ImportSite → Loaded)
    (id : ModuleId) (path directory : Text) : State → Nat → List ImportDecl → Option State
  | state, _, [] => some state
  | state, index, decl :: rest =>
      if isBuiltinStdlibModuleName decl.moduleName then
        let loaded := loadBuiltinModule state decl.moduleName
        loadImports fs roots load id path directory
          (loaded.1.setImport id index (some loaded.2)) (index + 1) rest
      else
        match (pathResolveImport fs roots directory decl.moduleName).resolvedPath with
        | none =>
            let state := state.report (some path) .E3017 decl.offset
              (Name.text "could not resolve import '" ++ decl.moduleName ++
                Name.text "'\nsearched:\n" ++
                (pathResolveImport fs roots directory decl.moduleName).searchedPaths)
            loadImports fs roots load id path directory state (index + 1) rest
        | some resolved =>
            match load state resolved ⟨some path, decl.offset⟩ with
            | none => none
            | some loaded =>
                loadImports fs roots load id path directory
                  (loaded.1.setImport id index loaded.2) (index + 1) rest

/-- Lexing, parsing and the imports of a module that has just been pushed. -/
def loadSource (fs : FileSystem) (roots : Roots) (load : State → Text → ImportSite → Loaded)
    (id : ModuleId) (module : Module) (site : ImportSite) (state : State) : Option State :=
  match fs.sourceLoad module.path with
  | .error message => some (state.report site.source .E3017 site.offset message)
  | .ok source =>
      let lexed := state.addDiagnostics source.lexerErrors
      if lexed.hasError then some lexed
      else
        let parsed := (lexed.addDiagnostics source.parserErrors).setProgram id source.imports
        loadImports fs roots load id module.path module.directory parsed 0 source.imports

/-- `cn_project_load_module`; `fuel` bounds the depth of the recursion. -/
def loadModule (fs : FileSystem) (roots : Roots) : Nat → State → Text → ImportSite → Loaded
  | 0, _, _, _ => none
  | fuel + 1, state, path, site =>
      match makeAbsolutePath fs.cwd path with
      | none =>
          some (state.report site.source .E3017 site.offset
            (Name.text "could not resolve module path '" ++ path ++ Name.text "'"), none)
      | some resolvedPath =>
          match state.findModuleByPath resolvedPath with
          | some id =>
              match state.modules[id]? with
              | some existing =>
                  if existing.loading then
                    some (state.report site.source .E3018 site.offset
                      (Name.text "cyclic import involving module '" ++ existing.name ++
                        Name.text "'"), some id)
                  else some (state, some id)
              | none => some (state, some id)
          | none =>
              let module := moduleCreate roots resolvedPath
              match state.findModuleByName module.name with
              | some conflict =>
                  some (state.report site.source .E3017 site.offset
                    (Name.text "module '" ++ path ++ Name.text "' resolves to '" ++ resolvedPath ++
                      Name.text "', but canonical module name '" ++ module.name ++
                      Name.text "' is already used by '" ++ conflict.path ++ Name.text "'"), none)
              | none =>
                  let id := state.modules.length
                  let pushed := state.pushModule { module with loading := true }
                  match loadSource fs roots (loadModule fs roots fuel) id module site pushed with
                  | none => none
                  | some loaded => some (loaded.setLoaded id, some id)

structure Project where
  modules : List Module
  diagnostics : List Diagnostic
  roots : Option Roots
  root : Option ModuleId

/-- The roots that `cn_project_load` sets for an entry file. -/
def rootsOf (absoluteEntryPath : Text) : Roots where
  projectRoot := pathDirectory absoluteEntryPath
  vendorRoot := pathJoinComponent (pathDirectory absoluteEntryPath) (Name.text "vendor")

def projectLoad (fs : FileSystem) (fuel : Nat) (entryPath : Text) : Option Project :=
  match makeAbsolutePath fs.cwd entryPath with
  | none =>
      some ⟨[], [⟨none, .E3017, 0, Name.text "could not resolve entry path '" ++ entryPath ++
        Name.text "'"⟩], none, none⟩
  | some absolute =>
      match loadModule fs (rootsOf absolute) fuel ⟨[], []⟩ entryPath ⟨none, 0⟩ with
      | none => none
      | some loaded =>
          some ⟨loaded.1.modules, loaded.1.diagnostics, some (rootsOf absolute), loaded.2⟩

end Load

end Cnegative
