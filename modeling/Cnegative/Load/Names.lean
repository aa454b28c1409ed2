import Cnegative.Load.Graph

namespace Cnegative

namespace Load

/-! What the later passes see of a module: where it came from and its canonical name. Only
`pushModule` changes these. -/

structure Label where
  isBuiltinStdlib : Bool
  name : Text
  path : Text
  deriving DecidableEq

def Module.label (module : Module) : Label :=
  ⟨module.isBuiltinStdlib, module.name, module.path⟩

def State.labels (state : State) : List Label :=
  state.modules.map Module.label

@[simp] theorem State.labels_report (state : State) (source : Option Text) (code : DiagCode)
    (offset : Nat) (message : Text) :
    (state.report source code offset message).labels = state.labels :=
  rfl

@[simp] theorem State.labels_addDiagnostics (state : State) (diagnostics : List Diagnostic) :
    (state.addDiagnostics diagnostics).labels = state.labels :=
  rfl

@[simp] theorem State.labels_pushModule (state : State) (module : Module) :
    (state.pushModule module).labels = state.labels ++ [module.label] := by
  simp [State.labels, State.pushModule]

theorem State.labels_modifyModule (state : State) (id : ModuleId) (change : Module → Module)
    (hlabel : ∀ module, (change module).label = module.label) :
    (state.modifyModule id change).labels = state.labels := by
  apply List.ext_getElem?
  intro index
  simp only [State.labels, State.modifyModule, List.getElem?_map, List.getElem?_modify]
  cases state.modules[index]? with
  | none => rfl
  | some module =>
      cases Decidable.em (id = index) with
      | inl hid => simp [hid, hlabel]
      | inr hid => simp [hid]

@[simp] theorem State.labels_setImport (state : State) (id : ModuleId) (index : Nat)
    (link : Option ModuleId) : (state.setImport id index link).labels = state.labels :=
  state.labels_modifyModule id _ fun _ => rfl

@[simp] theorem State.labels_setProgram (state : State) (id : ModuleId)
    (imports : List ImportDecl) : (state.setProgram id imports).labels = state.labels :=
  state.labels_modifyModule id _ fun _ => rfl

@[simp] theorem State.labels_setLoaded (state : State) (id : ModuleId) :
    (state.setLoaded id).labels = state.labels :=
  state.labels_modifyModule id _ fun _ => rfl

/-! The invariant of the search. A name may come twice in one way only: a file takes it
first, and the builtin module of that name is pushed without a look at the files. -/

structure Labelled (fs : FileSystem) (entry : Text) (labels : List Label) : Prop where
  builtin : ∀ label ∈ labels, label.isBuiltinStdlib = true →
    ImportsBuiltin fs entry label.name ∧ pathIsAbsolute label.path = false
  file : ∀ label ∈ labels, label.isBuiltinStdlib = false →
    Reachable fs entry label.path ∧
      label.name = projectModuleNameFromPath (rootsOf entry) label.path
  apart : labels.Pairwise fun first second =>
    (second.isBuiltinStdlib = true → first.isBuiltinStdlib = true) → first.name ≠ second.name

def Serves (fs : FileSystem) (roots : Roots) (labels : List Label) (directory : Text)
    (decl : ImportDecl) : Prop :=
  if isBuiltinStdlibModuleName decl.moduleName then
    ∃ label ∈ labels, label.isBuiltinStdlib = true ∧ label.name = decl.moduleName
  else
    ∀ target, importTarget fs roots directory decl = some target →
      ∃ label ∈ labels, label.isBuiltinStdlib = false ∧ label.path = target

def Covers (fs : FileSystem) (roots : Roots) (labels : List Label) (path : Text) : Prop :=
  ∀ source, fs.files.lookup path = some (some source) →
    ∀ decl ∈ source.imports, Serves fs roots labels (pathDirectory path) decl

theorem Serves.mono {fs : FileSystem} {roots : Roots} {labels later : List Label}
    (hmore : labels ⊆ later) {directory : Text} {decl : ImportDecl}
    (hserves : Serves fs roots labels directory decl) :
    Serves fs roots later directory decl := by
  unfold Serves at hserves ⊢
  split
  · rename_i hbuiltin
    rw [if_pos hbuiltin] at hserves
    obtain ⟨label, hmem, hlabel⟩ := hserves
    exact ⟨label, hmore hmem, hlabel⟩
  · rename_i hbuiltin
    rw [if_neg hbuiltin] at hserves
    intro target htarget
    obtain ⟨label, hmem, hlabel⟩ := hserves target htarget
    exact ⟨label, hmore hmem, hlabel⟩

theorem Covers.mono {fs : FileSystem} {roots : Roots} {labels later : List Label}
    (hmore : labels ⊆ later) {path : Text} (hcovers : Covers fs roots labels path) :
    Covers fs roots later path :=
  fun source hsource decl hdecl => (hcovers source hsource decl hdecl).mono hmore

section Labelled

variable {fs : FileSystem} {entry : Text} {labels : List Label}

theorem Labelled.nil : Labelled fs entry [] :=
  ⟨by simp, by simp, .nil⟩

theorem Labelled.push (hlabelled : Labelled fs entry labels) {label : Label}
    (hbuiltin : label.isBuiltinStdlib = true →
      ImportsBuiltin fs entry label.name ∧ pathIsAbsolute label.path = false)
    (hfile : label.isBuiltinStdlib = false → Reachable fs entry label.path ∧
      label.name = projectModuleNameFromPath (rootsOf entry) label.path)
    (hfree : ∀ other ∈ labels, (label.isBuiltinStdlib = true → other.isBuiltinStdlib = true) →
      other.name ≠ label.name) :
    Labelled fs entry (labels ++ [label]) where
  builtin other hother hkind := by
    rcases List.mem_append.mp hother with hold | hnew
    · exact hlabelled.builtin other hold hkind
    · rw [List.mem_singleton.mp hnew] at hkind ⊢
      exact hbuiltin hkind
  file other hother hkind := by
    rcases List.mem_append.mp hother with hold | hnew
    · exact hlabelled.file other hold hkind
    · rw [List.mem_singleton.mp hnew] at hkind ⊢
      exact hfile hkind
  apart := by
    refine List.pairwise_append.mpr ⟨hlabelled.apart, List.pairwise_singleton _ _, ?_⟩
    intro first hfirst second hsecond
    rw [List.mem_singleton.mp hsecond]
    exact hfree first hfirst

theorem Labelled.isFile (hlabelled : Labelled fs entry labels) {label : Label}
    (hmem : label ∈ labels) (habsolute : pathIsAbsolute label.path = true) :
    label.isBuiltinStdlib = false := by
  cases hkind : label.isBuiltinStdlib with
  | false => rfl
  | true =>
      have hrelative := (hlabelled.builtin label hmem hkind).2
      rw [habsolute] at hrelative
      contradiction

end Labelled

/-! One part of the search, from `state` to `later`: labels and errors are only added, and
without errors every file that was added has its imports served. -/

structure Searched (fs : FileSystem) (entry : Text) (state later : State) : Prop where
  labelled : Labelled fs entry later.labels
  labels : state.labels <+: later.labels
  diagnostics : state.diagnostics <+: later.diagnostics
  covered : later.diagnostics = [] → ∀ label ∈ later.labels, label.isBuiltinStdlib = false →
    label ∈ state.labels ∨ Covers fs (rootsOf entry) later.labels label.path

section Searched

variable {fs : FileSystem} {entry : Text} {state later : State}

theorem Searched.refl (hlabelled : Labelled fs entry state.labels) :
    Searched fs entry state state :=
  ⟨hlabelled, List.prefix_rfl, List.prefix_rfl, fun _ _ hmem _ => Or.inl hmem⟩

theorem Searched.trans {middle : State} (hfirst : Searched fs entry state middle)
    (hsecond : Searched fs entry middle later) : Searched fs entry state later where
  labelled := hsecond.labelled
  labels := hfirst.labels.trans hsecond.labels
  diagnostics := hfirst.diagnostics.trans hsecond.diagnostics
  covered hnone label hmem hkind := by
    have hquiet : middle.diagnostics = [] := List.prefix_nil.mp (hnone ▸ hsecond.diagnostics)
    rcases hsecond.covered hnone label hmem hkind with hold | hcovers
    · rcases hfirst.covered hquiet label hold hkind with hstart | hcovers
      · exact Or.inl hstart
      · exact Or.inr (hcovers.mono hsecond.labels.subset)
    · exact Or.inr hcovers

/-- An error ends what is said of the imports. -/
theorem Searched.failed (hlabelled : Labelled fs entry later.labels)
    (hlabels : state.labels <+: later.labels)
    (hdiagnostics : state.diagnostics <+: later.diagnostics)
    (hsome : later.diagnostics ≠ []) : Searched fs entry state later :=
  ⟨hlabelled, hlabels, hdiagnostics, fun hnone => absurd hnone hsome⟩

theorem Searched.report (hlabelled : Labelled fs entry state.labels) (source : Option Text)
    (code : DiagCode) (offset : Nat) (message : Text) :
    Searched fs entry state (state.report source code offset message) :=
  Searched.failed hlabelled List.prefix_rfl (List.prefix_append _ _)
    (by simp [State.report])

theorem Searched.setImport (hsearched : Searched fs entry state later) (id : ModuleId)
    (index : Nat) (link : Option ModuleId) :
    Searched fs entry state (later.setImport id index link) := by
  constructor
  · rw [State.labels_setImport]
    exact hsearched.labelled
  · rw [State.labels_setImport]
    exact hsearched.labels
  · exact hsearched.diagnostics
  · intro hnone label hmem hkind
    rw [State.labels_setImport] at hmem ⊢
    exact hsearched.covered hnone label hmem hkind

theorem loadBuiltinModule_searched (hlabelled : Labelled fs entry state.labels) {name : Text}
    (hname : ImportsBuiltin fs entry name) :
    Searched fs entry state (loadBuiltinModule state name).1 ∧
      ∃ label ∈ (loadBuiltinModule state name).1.labels,
        label.isBuiltinStdlib = true ∧ label.name = name := by
  unfold loadBuiltinModule
  split
  · rename_i id hfind
    simp only [List.findIdx?_eq_some_iff_getElem, Bool.and_eq_true, beq_iff_eq] at hfind
    obtain ⟨hlength, hfound, -⟩ := hfind
    exact ⟨.refl hlabelled, _, List.mem_map_of_mem (List.getElem_mem hlength), hfound⟩
  · rename_i hfind
    simp only [List.findIdx?_eq_none_iff, Bool.and_eq_false_iff, beq_eq_false_iff_ne] at hfind
    have hpath : pathIsAbsolute (builtinModuleCreate name).path = false := by
      simp only [builtinModuleCreate, List.append_assoc]
      rw [pathIsAbsolute_append_of_ne_nil (by decide)]
      decide
    have hpushed : Labelled fs entry (state.labels ++ [(builtinModuleCreate name).label]) := by
      refine hlabelled.push (fun _ => ⟨hname, hpath⟩)
        (fun hkind => by simp [Module.label, builtinModuleCreate] at hkind) ?_
      intro other hother hkind
      obtain ⟨module, hmodule, rfl⟩ := List.mem_map.mp hother
      cases hfind module hmodule with
      | inl hfile =>
          have hbuiltin : module.isBuiltinStdlib = true := hkind rfl
          rw [hfile] at hbuiltin
          contradiction
      | inr hother => exact hother
    refine ⟨⟨?_, ?_, List.prefix_rfl, ?_⟩, (builtinModuleCreate name).label, ?_, rfl, rfl⟩
    · rw [State.labels_pushModule]
      exact hpushed
    · rw [State.labels_pushModule]
      exact List.prefix_append _ _
    · intro _ label hmem hkind
      rw [State.labels_pushModule] at hmem
      rcases List.mem_append.mp hmem with hold | hnew
      · exact Or.inl hold
      · rw [List.mem_singleton.mp hnew] at hkind
        simp [Module.label, builtinModuleCreate] at hkind
    · rw [State.labels_pushModule]
      exact List.mem_append_right _ (List.mem_singleton_self _)

end Searched

section Calls

variable {fs : FileSystem} {entry : Text} {load : State → Text → ImportSite → Loaded}

/-- What a call for the file `path` does. -/
def Finds (fs : FileSystem) (entry : Text) (state : State) (path : Text) (later : State) : Prop :=
  Searched fs entry state later ∧ (later.diagnostics = [] →
    ∃ label ∈ later.labels, label.isBuiltinStdlib = false ∧ label.path = path)

theorem loadImports_searched
    (hload : ∀ state path site loaded, Labelled fs entry state.labels →
      Reachable fs entry path → load state path site = some loaded →
      Finds fs entry state path loaded.1)
    {path : Text} {source : SourceFile} (hsource : fs.files.lookup path = some (some source))
    (hreach : Reachable fs entry path) (id : ModuleId) (decls : List ImportDecl) :
    ∀ (state later : State) (index : Nat), (∀ decl ∈ decls, decl ∈ source.imports) →
      Labelled fs entry state.labels →
      loadImports fs (rootsOf entry) load id path (pathDirectory path) state index decls =
        some later →
      Searched fs entry state later ∧ (later.diagnostics = [] → ∀ decl ∈ decls,
        Serves fs (rootsOf entry) later.labels (pathDirectory path) decl) := by
  induction decls with
  | nil =>
      intro state later index _ hlabelled hrun
      simp only [loadImports, Option.some.injEq] at hrun
      subst hrun
      exact ⟨.refl hlabelled, by simp⟩
  | cons decl rest ih =>
      intro state later index hdecls hlabelled hrun
      have hmem := hdecls decl (List.mem_cons_self ..)
      have hrest := fun other hother => hdecls other (List.mem_cons_of_mem _ hother)
      -- the import is dealt with in `next`, the others after it
      have hnext : ∀ next : State, Searched fs entry state next →
          (next.diagnostics = [] →
            Serves fs (rootsOf entry) next.labels (pathDirectory path) decl) →
          loadImports fs (rootsOf entry) load id path (pathDirectory path) next (index + 1)
            rest = some later →
          Searched fs entry state later ∧ (later.diagnostics = [] → ∀ other ∈ decl :: rest,
            Serves fs (rootsOf entry) later.labels (pathDirectory path) other) := by
        intro next hsearched hserves hrun
        obtain ⟨hlater, hothers⟩ := ih next later (index + 1) hrest hsearched.labelled hrun
        refine ⟨hsearched.trans hlater, fun hnone other hother => ?_⟩
        rcases List.mem_cons.mp hother with rfl | htail
        · exact (hserves (List.prefix_nil.mp (hnone ▸ hlater.diagnostics))).mono
            hlater.labels.subset
        · exact hothers hnone other htail
      unfold loadImports at hrun
      cases hbuiltin : isBuiltinStdlibModuleName decl.moduleName with
      | true =>
          simp only [hbuiltin, if_true] at hrun
          obtain ⟨hsearched, hfound⟩ := @loadBuiltinModule_searched fs entry state hlabelled
            decl.moduleName ⟨hbuiltin, path, source, hreach, hsource, decl, hmem, rfl⟩
          refine hnext _ (hsearched.setImport id index _) (fun _ => ?_) hrun
          rw [State.labels_setImport]
          simpa [Serves, hbuiltin] using hfound
      | false =>
          simp only [hbuiltin, Bool.false_eq_true, if_false] at hrun
          cases hresolve : (pathResolveImport fs (rootsOf entry) (pathDirectory path)
              decl.moduleName).resolvedPath with
          | none =>
              simp only [hresolve] at hrun
              refine hnext _ (.report hlabelled _ _ _ _) (fun hnone => ?_) hrun
              simp [State.report] at hnone
          | some resolved =>
              simp only [hresolve] at hrun
              have htarget : importTarget fs (rootsOf entry) (pathDirectory path) decl =
                  some resolved := by
                simp [importTarget, hbuiltin, hresolve]
              have hstep : Imports fs (rootsOf entry) path resolved :=
                (mem_importTargets hsource).mpr ⟨decl, hmem, htarget⟩
              cases hcall : load state resolved ⟨some path, decl.offset⟩ with
              | none => simp [hcall] at hrun
              | some loaded =>
                  simp only [hcall] at hrun
                  obtain ⟨hsearched, hfound⟩ := hload _ _ _ loaded hlabelled
                    (hreach.tail hstep) hcall
                  refine hnext _ (hsearched.setImport id index _) (fun hnone => ?_) hrun
                  rw [State.labels_setImport]
                  simp only [Serves, hbuiltin, Bool.false_eq_true, if_false, htarget,
                    Option.some.injEq]
                  rintro target rfl
                  exact hfound hnone

theorem loadSource_searched
    (hload : ∀ state path site loaded, Labelled fs entry state.labels →
      Reachable fs entry path → load state path site = some loaded →
      Finds fs entry state path loaded.1)
    {module : Module} (hdirectory : module.directory = pathDirectory module.path)
    (hreach : Reachable fs entry module.path) {state later : State} {id : ModuleId}
    {site : ImportSite} (hlabelled : Labelled fs entry state.labels)
    (hrun : loadSource fs (rootsOf entry) load id module site state = some later) :
    Searched fs entry state later ∧
      (later.diagnostics = [] → Covers fs (rootsOf entry) later.labels module.path) := by
  unfold loadSource at hrun
  cases hread : fs.sourceLoad module.path with
  | error message =>
      simp only [hread, Option.some.injEq] at hrun
      subst hrun
      exact ⟨.report hlabelled _ _ _ _, fun hnone => by simp [State.report] at hnone⟩
  | ok source =>
      have hsource : fs.files.lookup module.path = some (some source) := by
        unfold FileSystem.sourceLoad at hread
        split at hread
        · simp at hread
        · simp at hread
        · rw [← Except.ok.inj hread]
          assumption
      simp only [hread] at hrun
      split at hrun
      · rename_i herror
        rw [Option.some.injEq] at hrun
        subst hrun
        have hsome : (state.addDiagnostics source.lexerErrors).diagnostics ≠ [] := by
          simpa [State.hasError] using herror
        exact ⟨.failed hlabelled List.prefix_rfl (List.prefix_append _ _) hsome,
          fun hnone => absurd hnone hsome⟩
      · have hparsed : (((state.addDiagnostics source.lexerErrors).addDiagnostics
            source.parserErrors).setProgram id source.imports).labels = state.labels := by simp
        rw [hdirectory] at hrun
        obtain ⟨hsearched, hserves⟩ := loadImports_searched hload hsource hreach id source.imports
          _ later 0 (fun _ hdecl => hdecl) (by rw [hparsed]; exact hlabelled) hrun
        refine ⟨⟨hsearched.labelled, hparsed ▸ hsearched.labels, ?_, ?_⟩, ?_⟩
        · refine List.IsPrefix.trans ?_ hsearched.diagnostics
          exact (List.prefix_append _ _).trans (List.prefix_append _ _)
        · intro hnone label hmem hkind
          rw [← hparsed]
          exact hsearched.covered hnone label hmem hkind
        · intro hnone other hother decl hdecl
          rw [hsource, Option.some.injEq, Option.some.injEq] at hother
          subst hother
          exact hserves hnone decl hdecl

theorem loadModule_finds (hentry : pathIsAbsolute entry = true) (fuel : Nat) :
    ∀ (state : State) (requested path : Text) (site : ImportSite)
      (loaded : State × Option ModuleId), makeAbsolutePath fs.cwd requested = some path →
      Labelled fs entry state.labels → Reachable fs entry path →
      loadModule fs (rootsOf entry) fuel state requested site = some loaded →
      Finds fs entry state path loaded.1 := by
  induction fuel with
  | zero =>
      intro state requested path site loaded _ _ _ hrun
      simp [loadModule] at hrun
  | succ fuel ih =>
      intro state requested path site loaded hpath hlabelled hreach hrun
      have habsolute := hreach.isAbsolute hentry
      cases hfind : state.findModuleByPath path with
      | some id =>
          obtain ⟨existing, hexisting, rfl⟩ := findModuleByPath_some hfind
          have hmem : existing.label ∈ state.labels :=
            List.mem_map_of_mem (List.mem_of_getElem? hexisting)
          obtain ⟨-, hcall⟩ | ⟨-, message, hcall⟩ := @loadModule_known
            _ (rootsOf entry) fuel _ _ _ site hpath _ hfind _ hexisting
          · rw [hcall, Option.some.injEq] at hrun
            subst hrun
            exact ⟨.refl hlabelled, fun _ => ⟨existing.label, hmem,
              hlabelled.isFile hmem habsolute, rfl⟩⟩
          · rw [hcall, Option.some.injEq] at hrun
            subst hrun
            exact ⟨.report hlabelled _ _ _ _, fun hnone => by simp [State.report] at hnone⟩
      | none =>
          cases hname : state.findModuleByName (moduleCreate (rootsOf entry) path).name with
          | some conflict =>
              obtain ⟨message, hcall⟩ := @loadModule_conflict _ (rootsOf entry) fuel _ _ _ site
                hpath hfind _ hname
              rw [hcall, Option.some.injEq] at hrun
              subst hrun
              exact ⟨.report hlabelled _ _ _ _, fun hnone => by simp [State.report] at hnone⟩
          | none =>
              rw [loadModule_fresh hpath hfind hname] at hrun
              have hpushed : Labelled fs entry
                  (state.pushModule (loadingModule (rootsOf entry) path)).labels := by
                rw [State.labels_pushModule]
                refine hlabelled.push (fun hkind => by
                  simp [Module.label, loadingModule, moduleCreate] at hkind)
                  (fun _ => ⟨hreach, rfl⟩) ?_
                intro other hother _ hsame
                obtain ⟨conflict, hconflict, rfl⟩ := List.mem_map.mp hother
                simp only [State.findModuleByName, List.find?_eq_none, beq_iff_eq] at hname
                exact hname conflict hconflict hsame
              obtain ⟨later, hlater, hloaded⟩ := Option.map_eq_some_iff.mp hrun
              subst hloaded
              have hcalls := fun state path site loaded hlabelled
                (hreach : Reachable fs entry path) => ih state path path site loaded
                  (makeAbsolutePath_of_absolute (hreach.isAbsolute hentry) fs.cwd) hlabelled hreach
              obtain ⟨hsearched, hcovers⟩ := @loadSource_searched fs entry _ hcalls
                (moduleCreate (rootsOf entry) path) rfl hreach _ _ _ _ hpushed hlater
              have hlabels :
                  state.labels ++ [(loadingModule (rootsOf entry) path).label] <+:
                    later.labels := by
                rw [← State.labels_pushModule]
                exact hsearched.labels
              refine ⟨⟨?_, ?_, hsearched.diagnostics, ?_⟩,
                fun _ => ⟨(loadingModule (rootsOf entry) path).label, ?_, rfl, rfl⟩⟩
              · rw [State.labels_setLoaded]
                exact hsearched.labelled
              · rw [State.labels_setLoaded]
                exact (List.prefix_append _ _).trans hlabels
              · intro hnone label hmem hkind
                rw [State.labels_setLoaded] at hmem ⊢
                rcases hsearched.covered hnone label hmem hkind with hold | hdone
                · rw [State.labels_pushModule] at hold
                  rcases List.mem_append.mp hold with hstart | hnew
                  · exact Or.inl hstart
                  · rw [List.mem_singleton.mp hnew]
                    exact Or.inr (hcovers hnone)
                · exact Or.inr hdone
              · rw [State.labels_setLoaded]
                exact hlabels.subset (List.mem_append_right _ (List.mem_singleton_self _))

end Calls

end Load

end Cnegative
