import Cnegative.Load.Graph

namespace Cnegative

namespace Load

/-! The invariant of the loader on files that load. -/

def Ends (fs : FileSystem) (entry path : Text) : Prop :=
  Acc (fun target path => Imports fs (rootsOf entry) path target) path

structure Sound (fs : FileSystem) (entry : Text) (state : State) : Prop where
  builtin : ∀ module ∈ state.modules, module.isBuiltinStdlib = true →
    pathIsAbsolute module.path = false ∧ module.loading = false ∧ module.imports = [] ∧
      ImportsBuiltin fs entry module.name
  file : ∀ module ∈ state.modules, module.isBuiltinStdlib = false →
    Reachable fs entry module.path ∧
      module.name = projectModuleNameFromPath (rootsOf entry) module.path ∧
      module.directory = pathDirectory module.path
  once : state.modules.Pairwise fun first second =>
    first.isBuiltinStdlib = false → second.isBuiltinStdlib = false → first.path ≠ second.path
  cyclic : ∀ diagnostic ∈ state.diagnostics, diagnostic.code = .E3018 ∧ ImportCycle fs entry
  finished : state.diagnostics = [] → ∀ module ∈ state.modules,
    module.isBuiltinStdlib = false → module.loading = false →
      Linked fs (rootsOf entry) state.modules module ∧ Ends fs entry module.path

/-- Only finished modules are added, and nothing is taken back. -/
structure Grown (state later : State) : Prop where
  modules : ∃ added, later.modules = state.modules ++ added ∧
    ∀ module ∈ added, module.loading = false
  diagnostics : state.diagnostics <+: later.diagnostics

theorem Grown.refl (state : State) : Grown state state :=
  ⟨⟨[], by simp, by simp⟩, List.prefix_rfl⟩

theorem Grown.no_diagnostics {state later : State} (hgrown : Grown state later)
    (hnone : later.diagnostics = []) : state.diagnostics = [] :=
  List.prefix_nil.mp (hnone ▸ hgrown.diagnostics)

theorem Grown.extends {state later : State} (hgrown : Grown state later) :
    Extends state.modules later.modules := by
  obtain ⟨added, hadded, -⟩ := hgrown.modules
  rw [hadded]
  exact Extends.append _ _

section Sound

variable {fs : FileSystem} {entry : Text} {state : State}

theorem Sound.push (hsound : Sound fs entry state) {module : Module}
    (hunfinished : module.isBuiltinStdlib = true ∨ module.loading = true)
    (hbuiltin : module.isBuiltinStdlib = true →
      pathIsAbsolute module.path = false ∧ module.loading = false ∧ module.imports = [] ∧
        ImportsBuiltin fs entry module.name)
    (hfile : module.isBuiltinStdlib = false →
      (Reachable fs entry module.path ∧
        module.name = projectModuleNameFromPath (rootsOf entry) module.path ∧
        module.directory = pathDirectory module.path) ∧ module.path ∉ state.paths) :
    Sound fs entry (state.pushModule module) where
  builtin other hother hkind := by
    rcases List.mem_append.mp hother with hold | hnew
    · exact hsound.builtin other hold hkind
    · rw [List.mem_singleton.mp hnew] at hkind ⊢
      exact hbuiltin hkind
  file other hother hkind := by
    rcases List.mem_append.mp hother with hold | hnew
    · exact hsound.file other hold hkind
    · rw [List.mem_singleton.mp hnew] at hkind ⊢
      exact (hfile hkind).1
  once := by
    refine List.pairwise_append.mpr ⟨hsound.once, List.pairwise_singleton _ _, ?_⟩
    intro first hfirst second hsecond _ hkind hpath
    rw [List.mem_singleton.mp hsecond] at hkind hpath
    exact (hfile hkind).2 (hpath ▸ List.mem_map_of_mem hfirst)
  cyclic := hsound.cyclic
  finished hnone other hother hkind hloading := by
    rcases List.mem_append.mp hother with hold | hnew
    · obtain ⟨hlinked, hends⟩ := hsound.finished hnone other hold hkind hloading
      exact ⟨hlinked.mono (Extends.append _ _), hends⟩
    · rw [List.mem_singleton.mp hnew] at hkind hloading
      cases hunfinished with
      | inl hbuiltin => rw [hbuiltin] at hkind; contradiction
      | inr hopen => rw [hopen] at hloading; contradiction

/-- A file's module may change its program, its imports and its mark. -/
theorem Sound.replace {before after : List Module} {module changed : Module}
    {diagnostics : List Diagnostic}
    (hsound : Sound fs entry ⟨before ++ module :: after, diagnostics⟩)
    (hkind : module.isBuiltinStdlib = false) (hkept : changed.isBuiltinStdlib = false)
    (hname : changed.name = module.name) (hpath : changed.path = module.path)
    (hdirectory : changed.directory = module.directory)
    (hfinished : changed.loading = false → diagnostics = [] →
      Linked fs (rootsOf entry) (before ++ changed :: after) changed ∧
        Ends fs entry changed.path) :
    Sound fs entry ⟨before ++ changed :: after, diagnostics⟩ where
  builtin other hother hbuiltin := by
    rcases List.mem_append.mp hother with hbefore | hafter
    · exact hsound.builtin other (List.mem_append_left _ hbefore) hbuiltin
    · rcases List.mem_cons.mp hafter with rfl | hlast
      · rw [hkept] at hbuiltin
        contradiction
      · exact hsound.builtin other
          (List.mem_append_right _ (List.mem_cons_of_mem _ hlast)) hbuiltin
  file other hother hother' := by
    rcases List.mem_append.mp hother with hbefore | hafter
    · exact hsound.file other (List.mem_append_left _ hbefore) hother'
    · rcases List.mem_cons.mp hafter with rfl | hlast
      · rw [hname, hpath, hdirectory]
        exact hsound.file module (List.mem_append_right _ (List.mem_cons_self ..)) hkind
      · exact hsound.file other
          (List.mem_append_right _ (List.mem_cons_of_mem _ hlast)) hother'
  once := by
    have honce := hsound.once
    simp only [List.pairwise_append, List.pairwise_cons, List.mem_cons, forall_eq_or_imp, hpath,
      hkept, hkind] at honce ⊢
    exact honce
  cyclic := hsound.cyclic
  finished hnone other hother hother' hloading := by
    have hextends := Extends.replace before after (hkept.trans hkind.symm) hname hpath
    rcases List.mem_append.mp hother with hbefore | hafter
    · obtain ⟨hlinked, hends⟩ := hsound.finished hnone other (List.mem_append_left _ hbefore)
        hother' hloading
      exact ⟨hlinked.mono hextends, hends⟩
    · rcases List.mem_cons.mp hafter with rfl | hlast
      · exact hfinished hloading hnone
      · obtain ⟨hlinked, hends⟩ := hsound.finished hnone other
          (List.mem_append_right _ (List.mem_cons_of_mem _ hlast)) hother' hloading
        exact ⟨hlinked.mono hextends, hends⟩

theorem Sound.report (hsound : Sound fs entry state) (hcycle : ImportCycle fs entry)
    (source : Option Text) (offset : Nat) (message : Text) :
    Sound fs entry (state.report source .E3018 offset message) where
  builtin := hsound.builtin
  file := hsound.file
  once := hsound.once
  cyclic diagnostic hmem := by
    rcases List.mem_append.mp hmem with hold | hnew
    · exact hsound.cyclic diagnostic hold
    · rw [List.mem_singleton.mp hnew]
      exact ⟨rfl, hcycle⟩
  finished hnone := by simp [State.report] at hnone

theorem Sound.isFile (hsound : Sound fs entry state) {module : Module}
    (hmem : module ∈ state.modules) (habsolute : pathIsAbsolute module.path = true) :
    module.isBuiltinStdlib = false := by
  cases hkind : module.isBuiltinStdlib with
  | false => rfl
  | true =>
      have hrelative := (hsound.builtin module hmem hkind).1
      rw [habsolute] at hrelative
      contradiction

/-- Names tell the files apart. -/
theorem Sound.name_is_free (hsound : Sound fs entry state) (hload : Loadable fs entry)
    (hapart : BuiltinsApart fs entry) {path : Text} (hreach : Reachable fs entry path)
    (hfresh : path ∉ state.paths) :
    state.findModuleByName (projectModuleNameFromPath (rootsOf entry) path) = none := by
  simp only [State.findModuleByName, List.find?_eq_none, beq_iff_eq]
  intro module hmem hname
  cases hkind : module.isBuiltinStdlib with
  | true =>
      obtain ⟨-, -, -, hbuiltin⟩ := hsound.builtin module hmem hkind
      exact hapart path hreach (hname ▸ hbuiltin)
  | false =>
      obtain ⟨hreached, hmodule, -⟩ := hsound.file module hmem hkind
      have hpath := hload.names _ _ hreached hreach (hmodule.symm.trans hname)
      exact hfresh (hpath ▸ List.mem_map_of_mem hmem)

theorem loadBuiltinModule_spec (hsound : Sound fs entry state) {name : Text}
    (hname : ImportsBuiltin fs entry name) :
    Sound fs entry (loadBuiltinModule state name).1 ∧
      Grown state (loadBuiltinModule state name).1 ∧
      ∃ target, (loadBuiltinModule state name).1.modules[(loadBuiltinModule state name).2]? =
        some target ∧ target.isBuiltinStdlib = true ∧ target.name = name := by
  unfold loadBuiltinModule
  split
  · rename_i id hfind
    simp only [List.findIdx?_eq_some_iff_getElem, Bool.and_eq_true, beq_iff_eq] at hfind
    obtain ⟨hlength, hfound, -⟩ := hfind
    exact ⟨hsound, Grown.refl state, _, List.getElem?_eq_getElem hlength, hfound⟩
  · refine ⟨hsound.push (Or.inl rfl) (fun _ => ⟨?_, rfl, rfl, hname⟩) (fun hkind => ?_),
      ⟨⟨[_], rfl, by simp [builtinModuleCreate]⟩, List.prefix_rfl⟩,
      builtinModuleCreate name, by simp [State.pushModule], rfl, rfl⟩
    · simp only [builtinModuleCreate, List.append_assoc]
      rw [pathIsAbsolute_append_of_ne_nil (by decide)]
      decide
    · simp [builtinModuleCreate] at hkind

end Sound

end Load

end Cnegative
