import Cnegative.Load.Sound

namespace Cnegative

namespace Load

/-! One call of the loader: it reports a cycle, or ends with a linked module. -/

/-- What a call that asks for the file `path` gives back. -/
structure Answers (fs : FileSystem) (entry : Text) (state : State) (path : Text)
    (loaded : State × Option ModuleId) : Prop where
  sound : Sound fs entry loaded.1
  grown : Grown state loaded.1
  target : ∃ (id : ModuleId) (target : Module), loaded.2 = some id ∧
    loaded.1.modules[id]? = some target ∧ target.isBuiltinStdlib = false ∧ target.path = path
  ends : loaded.1.diagnostics = [] → Ends fs entry path

def Pending (fs : FileSystem) (entry : Text) (modules : List Module) (path : Text) : Prop :=
  ∀ module ∈ modules, module.loading = true →
    Relation.TransGen (Imports fs (rootsOf entry)) module.path path

/-- The module with the first imports filled in. -/
def Module.withImports (module : Module) (links : List (Option ModuleId)) (left : Nat) : Module :=
  { module with imports := links ++ List.replicate left none }

/-- The same once its file is parsed. -/
def parsedModule (roots : Roots) (resolvedPath : Text) (imports : List ImportDecl) : Module :=
  { loadingModule roots resolvedPath with program := some imports }

theorem modifyModule_middle {state : State} {before after : List Module} {module : Module}
    (hshape : state.modules = before ++ module :: after) (change : Module → Module) :
    state.modifyModule before.length change =
      ⟨before ++ change module :: after, state.diagnostics⟩ := by
  have hmodify : ∀ before : List Module, (before ++ module :: after).modify before.length change =
      before ++ change module :: after := by
    intro before
    induction before with
    | nil => rfl
    | cons first rest ih => rw [List.cons_append, List.length_cons, List.modify_succ_cons, ih]; rfl
  simp only [State.modifyModule, hshape, hmodify]

theorem setProgram_loading {state : State} (hquiet : state.diagnostics = []) {roots : Roots}
    {resolvedPath : Text} {imports : List ImportDecl} :
    (((state.pushModule (loadingModule roots resolvedPath)).addDiagnostics []).addDiagnostics
        []).setProgram state.modules.length imports =
      ⟨state.modules ++ [(parsedModule roots resolvedPath imports).withImports []
        imports.length], []⟩ := by
  rw [State.setProgram,
    @modifyModule_middle _ state.modules [] (loadingModule roots resolvedPath) rfl]
  simp [State.addDiagnostics, State.pushModule, hquiet, Module.withImports, parsedModule]

/-- The state of the loop over the imports of a file after `done`. -/
structure Progress (fs : FileSystem) (entry : Text) (before : List Module) (module : Module)
    (state : State) (done : List ImportDecl) (links : List (Option ModuleId)) (left : Nat) :
    Prop where
  shape : ∃ after, state.modules = before ++ module.withImports links left :: after ∧
    ∀ other ∈ after, other.loading = false
  sound : Sound fs entry state
  linked : List.Forall₂ (LinksTo fs (rootsOf entry) state.modules module.directory) done links
  ends : state.diagnostics = [] → ∀ decl ∈ done, ∀ target,
    importTarget fs (rootsOf entry) module.directory decl = some target → Ends fs entry target

section Progress

variable {fs : FileSystem} {entry : Text} {before : List Module} {module : Module}
  {state : State} {done : List ImportDecl} {links : List (Option ModuleId)} {left : Nat}

theorem Progress.pending (hprogress : Progress fs entry before module state done links left)
    (hbefore : Pending fs entry before module.path) {target : Text}
    (hstep : Imports fs (rootsOf entry) module.path target) :
    Pending fs entry state.modules target := by
  obtain ⟨after, hshape, hafter⟩ := hprogress.shape
  intro other hmem hloading
  rw [hshape] at hmem
  rcases List.mem_append.mp hmem with hleft | hright
  · exact (hbefore other hleft hloading).tail hstep
  · rcases List.mem_cons.mp hright with rfl | hlast
    · exact .single hstep
    · rw [hafter other hlast] at hloading
      contradiction

theorem Progress.step
    (hprogress : Progress fs entry before module state done links (left + 1))
    (hkind : module.isBuiltinStdlib = false) (hopen : module.loading = true)
    {later : State} (hsound : Sound fs entry later) (hgrown : Grown state later)
    (decl : ImportDecl) (link : Option ModuleId)
    (hlink : LinksTo fs (rootsOf entry) later.modules module.directory decl link)
    (hends : later.diagnostics = [] → ∀ target,
      importTarget fs (rootsOf entry) module.directory decl = some target → Ends fs entry target) :
    Progress fs entry before module (later.setImport before.length done.length link)
      (done ++ [decl]) (links ++ [link]) left := by
  obtain ⟨after, hshape, hafter⟩ := hprogress.shape
  obtain ⟨added, hadded, hfinished⟩ := hgrown.modules
  have hlater : later.modules =
      before ++ module.withImports links (left + 1) :: (after ++ added) := by
    rw [hadded, hshape, List.append_assoc, List.cons_append]
  have hset : (links ++ List.replicate (left + 1) none).set done.length link =
      (links ++ [link]) ++ List.replicate left none := by
    rw [hprogress.linked.length_eq, List.set_append_right _ _ (Nat.le_refl _), Nat.sub_self,
      List.replicate_succ, List.set_cons_zero, List.append_assoc, List.singleton_append]
  have hnext : later.setImport before.length done.length link =
      ⟨before ++ module.withImports (links ++ [link]) left :: (after ++ added),
        later.diagnostics⟩ := by
    rw [State.setImport, modifyModule_middle hlater]
    simp only [Module.withImports, hset]
  have hextends : Extends later.modules
      (later.setImport before.length done.length link).modules := by
    rw [hnext, hlater]
    exact Extends.replace before (after ++ added) rfl rfl rfl
  have hquiet : (later.setImport before.length done.length link).diagnostics =
      later.diagnostics := rfl
  constructor
  · refine ⟨after ++ added, by rw [hnext], fun other hother => ?_⟩
    cases List.mem_append.mp hother with
    | inl hleft => exact hafter other hleft
    | inr hright => exact hfinished other hright
  · rw [hnext]
    have hopenSound : Sound fs entry
        ⟨before ++ module.withImports links (left + 1) :: (after ++ added), later.diagnostics⟩ := by
      rw [← hlater]
      exact hsound
    refine hopenSound.replace hkind hkind rfl rfl rfl (fun hloading => ?_)
    · rw [show (module.withImports (links ++ [link]) left).loading = true from hopen] at hloading
      contradiction
  · exact List.rel_append
      (hprogress.linked.imp fun _ _ hlinks => (hlinks.mono hgrown.extends).mono hextends)
      (.cons (hlink.mono hextends) .nil)
  · intro hnone other hother target htarget
    rcases List.mem_append.mp hother with hold | hnew
    · exact hprogress.ends (hgrown.no_diagnostics (hquiet ▸ hnone)) other hold target htarget
    · rw [List.mem_singleton.mp hnew] at htarget
      exact hends (hquiet ▸ hnone) target htarget

end Progress

section Calls

variable {fs : FileSystem} {entry : Text} {load : State → Text → ImportSite → Loaded}

theorem loadImports_progress (hloadable : Loadable fs entry)
    (hload : ∀ state path site loaded, Sound fs entry state → Reachable fs entry path →
      Pending fs entry state.modules path → load state path site = some loaded →
      Answers fs entry state path loaded)
    {before : List Module} {module : Module} {source : SourceFile}
    (hsource : fs.files.lookup module.path = some (some source))
    (hreach : Reachable fs entry module.path) (hbefore : Pending fs entry before module.path)
    (hkind : module.isBuiltinStdlib = false) (hopen : module.loading = true)
    (hdirectory : module.directory = pathDirectory module.path) (rest : List ImportDecl) :
    ∀ (done : List ImportDecl) (links : List (Option ModuleId)) (state later : State),
      source.imports = done ++ rest →
      Progress fs entry before module state done links rest.length →
      loadImports fs (rootsOf entry) load before.length module.path module.directory state
        done.length rest = some later →
      state.diagnostics <+: later.diagnostics ∧
        ∃ links, Progress fs entry before module later source.imports links 0 := by
  induction rest with
  | nil =>
      intro done links state later himports hprogress hrun
      simp only [loadImports, Option.some.injEq] at hrun
      rw [List.append_nil] at himports
      exact ⟨by rw [hrun], links, by rw [himports, ← hrun]; exact hprogress⟩
  | cons decl rest ih =>
      intro done links state later himports hprogress hrun
      have hmem : decl ∈ source.imports := by simp [himports]
      have himports' : source.imports = (done ++ [decl]) ++ rest := by simp [himports]
      have hlength : (done ++ [decl]).length = done.length + 1 := by simp
      unfold loadImports at hrun
      cases hbuiltin : isBuiltinStdlibModuleName decl.moduleName with
      | true =>
          simp only [hbuiltin, if_true] at hrun
          obtain ⟨hsound, hgrown, target, htarget, hisBuiltin, hname⟩ :=
            @loadBuiltinModule_spec fs entry state hprogress.sound decl.moduleName
              ⟨hbuiltin, module.path, source, hreach, hsource, decl, hmem, rfl⟩
          have hnext := hprogress.step hkind hopen hsound hgrown
            decl (some (loadBuiltinModule state decl.moduleName).2)
            ⟨_, target, rfl, htarget, by simp [Denotes, hbuiltin, hisBuiltin, hname]⟩
            (fun _ target htarget => by simp [importTarget, hbuiltin] at htarget)
          obtain ⟨hleading, hdone⟩ := ih _ _ _ later himports' hnext (by rw [hlength]; exact hrun)
          exact ⟨hgrown.diagnostics.trans hleading, hdone⟩
      | false =>
          obtain ⟨resolved, hresolved⟩ := Option.isSome_iff_exists.mp
            (hloadable.resolves module.path source hreach hsource decl hmem hbuiltin)
          rw [← hdirectory] at hresolved
          have hstep : Imports fs (rootsOf entry) module.path resolved :=
            (mem_importTargets hsource).mpr ⟨decl, hmem, hdirectory ▸ hresolved⟩
          have hpath : (pathResolveImport fs (rootsOf entry) module.directory
              decl.moduleName).resolvedPath = some resolved := by
            simpa [importTarget, hbuiltin] using hresolved
          simp only [hbuiltin, Bool.false_eq_true, if_false, hpath] at hrun
          cases hcall : load state resolved ⟨some module.path, decl.offset⟩ with
          | none => simp [hcall] at hrun
          | some loaded =>
              simp only [hcall] at hrun
              have hanswers := hload _ _ _ loaded hprogress.sound (hreach.tail hstep)
                (hprogress.pending hbefore hstep) hcall
              obtain ⟨id, target, hid, htarget, hfile, htargetPath⟩ := hanswers.target
              have hnext := hprogress.step hkind hopen hanswers.sound hanswers.grown
                decl loaded.2
                ⟨id, target, hid, htarget,
                  by simp [Denotes, hbuiltin, hfile, htargetPath, hresolved]⟩
                (fun hnone other hother => by
                  rw [hresolved] at hother
                  rw [← Option.some.inj hother]
                  exact hanswers.ends hnone)
              obtain ⟨hleading, hdone⟩ :=
                ih _ _ _ later himports' hnext (by rw [hlength]; exact hrun)
              exact ⟨hanswers.grown.diagnostics.trans hleading, hdone⟩

/-- Clearing the mark of the pushed module ends the call. -/
theorem setLoaded_answers {state loaded : State} (module : Module) (after : List Module)
    (hshape : loaded.modules = state.modules ++ module :: after)
    (hafter : ∀ other ∈ after, other.loading = false) (hsound : Sound fs entry loaded)
    (hkind : module.isBuiltinStdlib = false) (hleading : state.diagnostics <+: loaded.diagnostics)
    (hfinished : loaded.diagnostics = [] →
      Linked fs (rootsOf entry) (state.modules ++ { module with loading := false } :: after)
        { module with loading := false } ∧ Ends fs entry module.path) :
    Answers fs entry state module.path
      (loaded.setLoaded state.modules.length, some state.modules.length) := by
  have hset : loaded.setLoaded state.modules.length =
      ⟨state.modules ++ { module with loading := false } :: after, loaded.diagnostics⟩ :=
    modifyModule_middle hshape _
  have hold : Sound fs entry ⟨state.modules ++ module :: after, loaded.diagnostics⟩ := by
    rw [← hshape]
    exact hsound
  constructor
  · rw [hset]
    exact hold.replace hkind hkind rfl rfl rfl fun _ hnone => hfinished hnone
  · rw [hset]
    refine ⟨⟨_, rfl, fun other hother => ?_⟩, hleading⟩
    cases List.mem_cons.mp hother with
    | inl hhead => rw [hhead]
    | inr htail => exact hafter other htail
  · refine ⟨_, { module with loading := false }, rfl, ?_, hkind, rfl⟩
    simp [hset]
  · rw [hset]
    exact fun hnone => (hfinished hnone).2

theorem Progress.finished {before : List Module} {module : Module} {state : State}
    {source : SourceFile} {links : List (Option ModuleId)}
    (hprogress : Progress fs entry before module state source.imports links 0)
    (hsource : fs.files.lookup module.path = some (some source))
    (hprogram : module.program = some source.imports)
    (hdirectory : module.directory = pathDirectory module.path) {after : List Module}
    (hshape : state.modules = before ++ module.withImports links 0 :: after)
    (hnone : state.diagnostics = []) :
    Linked fs (rootsOf entry)
      (before ++ { module.withImports links 0 with loading := false } :: after)
      { module.withImports links 0 with loading := false } ∧ Ends fs entry module.path := by
  constructor
  · refine ⟨source, hsource, hprogram, ?_⟩
    have hextends : Extends state.modules
        (before ++ { module.withImports links 0 with loading := false } :: after) := by
      rw [hshape]
      exact Extends.replace before after rfl rfl rfl
    have hlinks : (module.withImports links 0).imports = links := by simp [Module.withImports]
    rw [show ({ module.withImports links 0 with loading := false } : Module).imports = links
      from hlinks]
    exact hprogress.linked.imp fun _ _ hlink => hlink.mono hextends
  · refine Acc.intro _ fun target hstep => ?_
    obtain ⟨decl, hmem, htarget⟩ := (mem_importTargets hsource).mp hstep
    exact hprogress.ends hnone decl hmem target (hdirectory ▸ htarget)

theorem loadModule_answers (hloadable : Loadable fs entry) (hapart : BuiltinsApart fs entry)
    (hentry : pathIsAbsolute entry = true) (fuel : Nat) :
    ∀ (state : State) (requested path : Text) (site : ImportSite)
      (loaded : State × Option ModuleId), makeAbsolutePath fs.cwd requested = some path →
      Sound fs entry state → Reachable fs entry path → Pending fs entry state.modules path →
      loadModule fs (rootsOf entry) fuel state requested site = some loaded →
      Answers fs entry state path loaded := by
  induction fuel with
  | zero =>
      intro state requested path site loaded _ _ _ _ hrun
      simp [loadModule] at hrun
  | succ fuel ih =>
      intro state requested path site loaded hpath hsound hreach hpending hrun
      have habsolute := hreach.isAbsolute hentry
      cases hfind : state.findModuleByPath path with
      | some id =>
          obtain ⟨existing, hexisting, rfl⟩ := findModuleByPath_some hfind
          have hmem := List.mem_of_getElem? hexisting
          have hkind := hsound.isFile hmem habsolute
          obtain ⟨hloaded, hcall⟩ | ⟨hloading, message, hcall⟩ := @loadModule_known
            _ (rootsOf entry) fuel _ _ _ site hpath _ hfind _ hexisting
          · rw [hcall, Option.some.injEq] at hrun
            subst hrun
            exact ⟨hsound, Grown.refl state, ⟨id, existing, rfl, hexisting, hkind, rfl⟩,
              fun hnone => (hsound.finished hnone existing hmem hkind hloaded).2⟩
          · -- the mark is still set: the imports lead back here
            rw [hcall, Option.some.injEq] at hrun
            subst hrun
            have hcycle : ImportCycle fs entry := ⟨_, hreach, hpending existing hmem hloading⟩
            exact ⟨hsound.report hcycle _ _ _, ⟨⟨[], by simp [State.report], by simp⟩,
              List.prefix_append _ _⟩, ⟨id, existing, rfl, hexisting, hkind, rfl⟩,
              fun hnone => by simp [State.report] at hnone⟩
      | none =>
          have hfresh := findModuleByPath_none hfind
          have hname := hsound.name_is_free hloadable hapart hreach hfresh
          rw [loadModule_fresh hpath hfind hname] at hrun
          obtain ⟨source, hsource, hlexer, hparser⟩ := hloadable.parses path hreach
          have hpushed : Sound fs entry (state.pushModule (loadingModule (rootsOf entry) path)) :=
            hsound.push (Or.inr rfl) (fun hkind => by simp [loadingModule, moduleCreate] at hkind)
              (fun _ => ⟨⟨hreach, rfl, rfl⟩, hfresh⟩)
          have hread : fs.sourceLoad (moduleCreate (rootsOf entry) path).path = .ok source := by
            simp [FileSystem.sourceLoad, moduleCreate, hsource]
          simp only [loadSource, hread, hlexer, hparser] at hrun
          split at hrun
          · -- an earlier cycle: the file is not parsed
            rename_i herror
            simp only [Option.map_some, Option.some.injEq] at hrun
            subst hrun
            have hsome : ((state.pushModule (loadingModule (rootsOf entry) path)).addDiagnostics
                []).diagnostics ≠ [] := by
              simpa [State.hasError] using herror
            refine setLoaded_answers (loadingModule (rootsOf entry) path) [] rfl (by simp) ?_ rfl ?_
              (fun hnone => absurd hnone hsome)
            · simpa [State.addDiagnostics] using hpushed
            · exact List.prefix_append _ _
          · rename_i herror
            have hquiet : state.diagnostics = [] := by
              simpa [State.hasError, State.addDiagnostics, State.pushModule] using herror
            obtain ⟨later, hlater, hloaded⟩ := Option.map_eq_some_iff.mp hrun
            subst hloaded
            have hstart : Progress fs entry state.modules
                (parsedModule (rootsOf entry) path source.imports)
                ⟨state.modules ++ [(parsedModule (rootsOf entry) path source.imports).withImports []
                  source.imports.length], []⟩ [] [] source.imports.length := by
              refine ⟨⟨[], rfl, by simp⟩, ?_, .nil, by simp⟩
              have hpushed' : Sound fs entry
                  ⟨state.modules ++ [loadingModule (rootsOf entry) path], []⟩ := by
                rw [← hquiet]
                exact hpushed
              exact hpushed'.replace rfl rfl rfl rfl rfl (fun hloading => by
                simp [Module.withImports, parsedModule, loadingModule] at hloading)
            rw [setProgram_loading hquiet] at hlater
            have hcalls := fun state path site loaded hsound (hreach : Reachable fs entry path) =>
              ih state path path site loaded
                (makeAbsolutePath_of_absolute (hreach.isAbsolute hentry) fs.cwd) hsound hreach
            obtain ⟨-, links, hprogress⟩ := @loadImports_progress fs entry _ hloadable hcalls _
              (parsedModule (rootsOf entry) path source.imports) _
              hsource hreach hpending rfl rfl rfl source.imports [] [] _ later rfl hstart hlater
            obtain ⟨after, hshape, hafter⟩ := hprogress.shape
            exact setLoaded_answers
              ((parsedModule (rootsOf entry) path source.imports).withImports links 0) after hshape
              hafter hprogress.sound rfl (by rw [hquiet]; simp)
              (hprogress.finished hsource rfl rfl hshape)

end Calls

end Load

end Cnegative
