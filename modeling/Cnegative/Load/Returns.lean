import Mathlib.Data.Finset.Card
import Cnegative.Load.Project

namespace Cnegative

namespace Load

/-! The loader returns: a module is pushed before its imports are followed, and no path is
pushed twice. -/

def State.paths (state : State) : List Text :=
  state.modules.map Module.path

@[simp] theorem State.paths_report (state : State) (source : Option Text) (code : DiagCode)
    (offset : Nat) (message : Text) :
    (state.report source code offset message).paths = state.paths :=
  rfl

@[simp] theorem State.paths_pushModule (state : State) (module : Module) :
    (state.pushModule module).paths = state.paths ++ [module.path] := by
  simp [State.paths, State.pushModule]

theorem State.paths_modifyModule (state : State) (id : ModuleId) (change : Module → Module)
    (hpath : ∀ module, (change module).path = module.path) :
    (state.modifyModule id change).paths = state.paths := by
  apply List.ext_getElem?
  intro index
  simp only [State.paths, State.modifyModule, List.getElem?_map, List.getElem?_modify]
  cases state.modules[index]? with
  | none => rfl
  | some module =>
      by_cases hid : id = index
      · simp [hid, hpath]
      · simp [hid]

@[simp] theorem State.paths_setImport (state : State) (id : ModuleId) (index : Nat)
    (link : Option ModuleId) : (state.setImport id index link).paths = state.paths :=
  state.paths_modifyModule id _ fun _ => rfl

@[simp] theorem State.paths_setProgram (state : State) (id : ModuleId)
    (imports : List ImportDecl) : (state.setProgram id imports).paths = state.paths :=
  state.paths_modifyModule id _ fun _ => rfl

@[simp] theorem State.paths_setLoaded (state : State) (id : ModuleId) :
    (state.setLoaded id).paths = state.paths :=
  state.paths_modifyModule id _ fun _ => rfl

@[simp] theorem State.paths_addDiagnostics (state : State) (diagnostics : List Diagnostic) :
    (state.addDiagnostics diagnostics).paths = state.paths :=
  rfl

theorem loadBuiltinModule_paths (state : State) (moduleName : Text) :
    state.paths <+: (loadBuiltinModule state moduleName).1.paths := by
  unfold loadBuiltinModule
  split
  · exact List.prefix_rfl
  · rw [State.paths_pushModule]
    exact List.prefix_append _ _

def unloaded (fs : FileSystem) (paths : List Text) : Finset Text :=
  (fs.files.map Prod.fst).toFinset \ paths.toFinset

theorem mem_unloaded {fs : FileSystem} {paths : List Text} {path : Text} :
    path ∈ unloaded fs paths ↔ path ∈ fs.files.map Prod.fst ∧ path ∉ paths := by
  rw [unloaded, Finset.mem_sdiff, List.mem_toFinset, List.mem_toFinset]

theorem unloaded_card_le (fs : FileSystem) {paths more : List Text} (hleading : paths <+: more) :
    (unloaded fs more).card ≤ (unloaded fs paths).card := by
  apply Finset.card_le_card
  intro path hpath
  rw [mem_unloaded] at hpath ⊢
  exact ⟨hpath.1, fun hmem => hpath.2 (hleading.subset hmem)⟩

theorem mem_files_of_lookup {fs : FileSystem} {path : Text} {source : Option SourceFile}
    (hlookup : fs.files.lookup path = some source) : path ∈ fs.files.map Prod.fst := by
  obtain ⟨before, after, hfiles, -⟩ := List.lookup_eq_some_iff.mp hlookup
  simp [hfiles]

theorem unloaded_card_lt {fs : FileSystem} {paths : List Text} {path : Text}
    (hfile : path ∈ fs.files.map Prod.fst) (hfresh : path ∉ paths) :
    (unloaded fs (paths ++ [path])).card < (unloaded fs paths).card := by
  apply Finset.card_lt_card
  refine ⟨fun other hother => ?_, fun hsubset => ?_⟩
  · rw [mem_unloaded, List.mem_append, not_or] at hother
    exact mem_unloaded.mpr ⟨hother.1, hother.2.1⟩
  · have hgone := mem_unloaded.mp (hsubset (mem_unloaded.mpr ⟨hfile, hfresh⟩))
    exact hgone.2 (List.mem_append_right paths List.mem_cons_self)

theorem findModuleByPath_none {state : State} {path : Text}
    (hfind : state.findModuleByPath path = none) : path ∉ state.paths := by
  simp only [State.findModuleByPath, List.findIdx?_eq_none_iff, beq_eq_false_iff_ne] at hfind
  intro hmem
  obtain ⟨module, hmodule, hpath⟩ := List.mem_map.mp hmem
  exact hfind module hmodule hpath

theorem findModuleByPath_some {state : State} {path : Text} {id : ModuleId}
    (hfind : state.findModuleByPath path = some id) :
    ∃ existing, state.modules[id]? = some existing ∧ existing.path = path := by
  simp only [State.findModuleByPath, List.findIdx?_eq_some_iff_getElem, beq_iff_eq] at hfind
  obtain ⟨hlength, hpath, -⟩ := hfind
  exact ⟨_, List.getElem?_eq_getElem hlength, hpath⟩

/-! What a call of `loadModule` does, by the way its path is known. -/

section Call

variable {fs : FileSystem} {roots : Roots} {fuel : Nat} {state : State} {path resolvedPath : Text}
  {site : ImportSite}

theorem loadModule_unresolved (hpath : makeAbsolutePath fs.cwd path = none) :
    ∃ message, loadModule fs roots (fuel + 1) state path site =
      some (state.report site.source .E3017 site.offset message, none) := by
  simp only [loadModule, hpath]
  exact ⟨_, rfl⟩

theorem loadModule_known (hpath : makeAbsolutePath fs.cwd path = some resolvedPath)
    {id : ModuleId} (hfind : state.findModuleByPath resolvedPath = some id) {existing : Module}
    (hexisting : state.modules[id]? = some existing) :
    (existing.loading = false ∧
      loadModule fs roots (fuel + 1) state path site = some (state, some id)) ∨
    (existing.loading = true ∧ ∃ message, loadModule fs roots (fuel + 1) state path site =
      some (state.report site.source .E3018 site.offset message, some id)) := by
  cases hloading : existing.loading with
  | false =>
      refine Or.inl ⟨rfl, ?_⟩
      simp [loadModule, hpath, hfind, hexisting, hloading]
  | true =>
      refine Or.inr ⟨rfl, ?_⟩
      simp only [loadModule, hpath, hfind, hexisting, hloading, if_true]
      exact ⟨_, rfl⟩

theorem loadModule_conflict (hpath : makeAbsolutePath fs.cwd path = some resolvedPath)
    (hfind : state.findModuleByPath resolvedPath = none) {conflict : Module}
    (hname : state.findModuleByName (moduleCreate roots resolvedPath).name = some conflict) :
    ∃ message, loadModule fs roots (fuel + 1) state path site =
      some (state.report site.source .E3017 site.offset message, none) := by
  simp only [loadModule, hpath, hfind, hname]
  exact ⟨_, rfl⟩

/-- A module as it is pushed, marked until its imports are loaded. -/
def loadingModule (roots : Roots) (resolvedPath : Text) : Module :=
  { moduleCreate roots resolvedPath with loading := true }

theorem loadModule_fresh (hpath : makeAbsolutePath fs.cwd path = some resolvedPath)
    (hfind : state.findModuleByPath resolvedPath = none)
    (hname : state.findModuleByName (moduleCreate roots resolvedPath).name = none) :
    loadModule fs roots (fuel + 1) state path site =
      (loadSource fs roots (loadModule fs roots fuel) state.modules.length
        (moduleCreate roots resolvedPath) site
        (state.pushModule (loadingModule roots resolvedPath))).map
        fun loaded => (loaded.setLoaded state.modules.length, some state.modules.length) := by
  simp only [loadModule, loadingModule, hpath, hfind, hname]
  cases loadSource fs roots (loadModule fs roots fuel) state.modules.length
    (moduleCreate roots resolvedPath) site
    (state.pushModule { moduleCreate roots resolvedPath with loading := true }) with
  | none => rfl
  | some loaded => rfl

end Call

section Imports

variable {fs : FileSystem} {roots : Roots} {load : State → Text → ImportSite → Loaded}
  {bound : Nat}

theorem loadImports_returns
    (hload : ∀ state path site, (unloaded fs state.paths).card < bound →
      ∃ loaded, load state path site = some loaded ∧ state.paths <+: loaded.1.paths)
    (id : ModuleId) (path directory : Text) (decls : List ImportDecl) :
    ∀ (state : State) (index : Nat), (unloaded fs state.paths).card < bound →
      ∃ loaded, loadImports fs roots load id path directory state index decls = some loaded ∧
        state.paths <+: loaded.paths := by
  induction decls with
  | nil => exact fun state index _ => ⟨state, rfl, List.prefix_rfl⟩
  | cons decl rest ih =>
      intro state index hbound
      have hnext : ∀ (next : State) (index : Nat), state.paths <+: next.paths →
          ∃ loaded, loadImports fs roots load id path directory next index rest = some loaded ∧
            state.paths <+: loaded.paths := by
        intro next index hleading
        obtain ⟨loaded, hloaded, hmore⟩ := ih next index
          (Nat.lt_of_le_of_lt (unloaded_card_le fs hleading) hbound)
        exact ⟨loaded, hloaded, hleading.trans hmore⟩
      unfold loadImports
      split
      · apply hnext
        rw [State.paths_setImport]
        exact loadBuiltinModule_paths state decl.moduleName
      · cases hresolve : (pathResolveImport fs roots directory decl.moduleName).resolvedPath with
        | none => exact hnext _ _ List.prefix_rfl
        | some resolved =>
            obtain ⟨loaded, hloaded, hmore⟩ := hload state resolved ⟨some path, decl.offset⟩ hbound
            simp only [hloaded]
            apply hnext
            rw [State.paths_setImport]
            exact hmore

theorem loadSource_returns
    (hload : ∀ state path site, (unloaded fs state.paths).card < bound →
      ∃ loaded, load state path site = some loaded ∧ state.paths <+: loaded.1.paths)
    (id : ModuleId) (module : Module) (site : ImportSite) (state : State)
    (hbound : ∀ source, fs.sourceLoad module.path = .ok source →
      (unloaded fs state.paths).card < bound) :
    ∃ loaded, loadSource fs roots load id module site state = some loaded ∧
      state.paths <+: loaded.paths := by
  unfold loadSource
  cases hsource : fs.sourceLoad module.path with
  | error message => exact ⟨_, rfl, List.prefix_rfl⟩
  | ok source =>
      dsimp only
      split
      · exact ⟨_, rfl, List.prefix_rfl⟩
      · have hpaths : (((state.addDiagnostics source.lexerErrors).addDiagnostics
            source.parserErrors).setProgram id source.imports).paths = state.paths := by simp
        rw [← hpaths]
        apply loadImports_returns hload
        rw [hpaths]
        exact hbound source hsource

end Imports

theorem loadModule_returns (fs : FileSystem) (roots : Roots) (fuel : Nat) :
    ∀ (state : State) (path : Text) (site : ImportSite), (unloaded fs state.paths).card < fuel →
      ∃ loaded, loadModule fs roots fuel state path site = some loaded ∧
        state.paths <+: loaded.1.paths := by
  induction fuel with
  | zero => exact fun state path site hbound => absurd hbound (Nat.not_lt_zero _)
  | succ fuel ih =>
      intro state path site hbound
      cases hpath : makeAbsolutePath fs.cwd path with
      | none =>
          obtain ⟨message, hcall⟩ := loadModule_unresolved hpath
          exact ⟨_, hcall, List.prefix_rfl⟩
      | some resolvedPath =>
          cases hfind : state.findModuleByPath resolvedPath with
          | some id =>
              obtain ⟨existing, hexisting, -⟩ := findModuleByPath_some hfind
              obtain ⟨-, hcall⟩ | ⟨-, message, hcall⟩ := loadModule_known hpath hfind hexisting
              · exact ⟨_, hcall, List.prefix_rfl⟩
              · exact ⟨_, hcall, List.prefix_rfl⟩
          | none =>
              cases hname : state.findModuleByName (moduleCreate roots resolvedPath).name with
              | some conflict =>
                  obtain ⟨message, hcall⟩ := loadModule_conflict hpath hfind hname
                  exact ⟨_, hcall, List.prefix_rfl⟩
              | none =>
                  have hfile : ∀ source, fs.sourceLoad resolvedPath = .ok source →
                      resolvedPath ∈ fs.files.map Prod.fst := by
                    intro source hsource
                    unfold FileSystem.sourceLoad at hsource
                    split at hsource
                    · simp at hsource
                    · simp at hsource
                    · exact mem_files_of_lookup ‹_›
                  obtain ⟨loaded, hloaded, hmore⟩ := loadSource_returns ih
                    state.modules.length (moduleCreate roots resolvedPath) site
                    (state.pushModule (loadingModule roots resolvedPath))
                    (fun source hsource => by
                      rw [State.paths_pushModule]
                      exact Nat.lt_of_lt_of_le
                        (unloaded_card_lt (hfile source hsource) (findModuleByPath_none hfind))
                        (Nat.le_of_lt_succ hbound))
                  refine ⟨_, by rw [loadModule_fresh hpath hfind hname, hloaded]; rfl, ?_⟩
                  rw [State.paths_setLoaded]
                  rw [State.paths_pushModule] at hmore
                  exact (List.prefix_append _ _).trans hmore

/-- One level of recursion for each file is enough. -/
theorem projectLoad_returns (fs : FileSystem) (entryPath : Text) :
    ∃ project, projectLoad fs (fs.files.length + 1) entryPath = some project := by
  unfold projectLoad
  cases makeAbsolutePath fs.cwd entryPath with
  | none => exact ⟨_, rfl⟩
  | some absolute =>
      have hfew : (unloaded fs (State.paths ⟨[], []⟩)).card < fs.files.length + 1 := by
        have hle : (unloaded fs (State.paths ⟨[], []⟩)).card ≤ fs.files.length :=
          calc (unloaded fs (State.paths ⟨[], []⟩)).card
              ≤ (fs.files.map Prod.fst).toFinset.card := Finset.card_le_card Finset.sdiff_subset
            _ ≤ (fs.files.map Prod.fst).length := List.toFinset_card_le _
            _ = fs.files.length := List.length_map ..
        omega
      obtain ⟨loaded, hloaded, -⟩ := loadModule_returns fs (rootsOf absolute)
        (fs.files.length + 1) ⟨[], []⟩ entryPath ⟨none, 0⟩ hfew
      simp only [hloaded]
      exact ⟨_, rfl⟩

end Load

end Cnegative
