import Cnegative.Load.Follows

namespace Cnegative

namespace Load

/-! The modules of a loaded project are the import graph of its files. -/

/-- The module at `id` is the one of that file. -/
def HasFile (modules : List Module) (id : ModuleId) (path : Text) : Prop :=
  ∃ module : Module, modules[id]? = some module ∧ module.isBuiltinStdlib = false ∧
    module.path = path

def ImportsModule (modules : List Module) (id target : ModuleId) : Prop :=
  ∃ module : Module, modules[id]? = some module ∧ some target ∈ module.imports

section Graph

variable {fs : FileSystem} {entry : Text}

theorem Ends.no_cycle (hends : Ends fs entry entry) : ¬ ImportCycle fs entry := by
  rintro ⟨path, hreach, hcycle⟩
  exact Library.not_cycle_of_acc (Library.acc_of_reaches hends hreach) hcycle

theorem Sound.hasFile_unique {state : State} (hsound : Sound fs entry state) {path : Text}
    {first second : ModuleId} (hfirst : HasFile state.modules first path)
    (hsecond : HasFile state.modules second path) : first = second := by
  obtain ⟨module, hmodule, hkind, hpath⟩ := hfirst
  obtain ⟨other, hother, hotherKind, hotherPath⟩ := hsecond
  obtain ⟨hfirst, rfl⟩ := List.getElem?_eq_some_iff.mp hmodule
  obtain ⟨hsecond, rfl⟩ := List.getElem?_eq_some_iff.mp hother
  have honce := List.pairwise_iff_getElem.mp hsound.once
  rcases Nat.lt_trichotomy first second with hless | heq | hgreater
  · exact absurd (hpath.trans hotherPath.symm) (honce _ _ hfirst hsecond hless hkind hotherKind)
  · exact heq
  · exact absurd (hotherPath.trans hpath.symm) (honce _ _ hsecond hfirst hgreater hotherKind hkind)

theorem Linked.target {roots : Roots} {modules : List Module} {module : Module}
    (hlinked : Linked fs roots modules module)
    (hdirectory : module.directory = pathDirectory module.path) {target : Text}
    (himports : Imports fs roots module.path target) : ∃ id, HasFile modules id target := by
  obtain ⟨source, hsource, -, hlinks⟩ := hlinked
  obtain ⟨decl, hmem, htarget⟩ := (mem_importTargets hsource).mp himports
  obtain ⟨index, hindex, rfl⟩ := List.getElem_of_mem hmem
  obtain ⟨id, found, -, hfound, hdenotes⟩ := hlinks.get hindex (hlinks.length_eq ▸ hindex)
  refine ⟨id, found, hfound, ?_⟩
  simp only [List.get_eq_getElem, Denotes, hdirectory] at hdenotes
  split at hdenotes
  · rename_i hbuiltin
    simp [importTarget, hbuiltin] at htarget
  · rw [htarget, Option.some.injEq] at hdenotes
    exact ⟨hdenotes.1, hdenotes.2.symm⟩

/-- A link of a file's module leads to a builtin module or along an import. -/
theorem Linked.follows {roots : Roots} {modules : List Module} {module : Module}
    (hlinked : Linked fs roots modules module)
    (hdirectory : module.directory = pathDirectory module.path) {id : ModuleId}
    (hlink : some id ∈ module.imports) : ∃ target : Module, modules[id]? = some target ∧
      (target.isBuiltinStdlib = false → Imports fs roots module.path target.path) := by
  obtain ⟨source, hsource, -, hlinks⟩ := hlinked
  obtain ⟨index, hindex, hget⟩ := List.getElem_of_mem hlink
  have hdecl : index < source.imports.length := hlinks.length_eq ▸ hindex
  obtain ⟨id', target, hid, htarget, hdenotes⟩ := hlinks.get hdecl hindex
  rw [List.get_eq_getElem, hget, Option.some.injEq] at hid
  subst hid
  refine ⟨target, htarget, fun hkind => ?_⟩
  simp only [List.get_eq_getElem, Denotes, hdirectory] at hdenotes
  split at hdenotes
  · rw [hdenotes.1] at hkind
    contradiction
  · exact (mem_importTargets hsource).mpr ⟨_, List.getElem_mem hdecl, hdenotes.2⟩

/-- A project without errors, every module of which is loaded. -/
structure Complete (fs : FileSystem) (entry : Text) (state : State) : Prop where
  sound : Sound fs entry state
  quiet : state.diagnostics = []
  loaded : ∀ module ∈ state.modules, module.loading = false
  root : ∃ id, HasFile state.modules id entry

section Complete

variable {state : State}

theorem Complete.linked (hcomplete : Complete fs entry state) {module : Module}
    (hmem : module ∈ state.modules) (hkind : module.isBuiltinStdlib = false) :
    Linked fs (rootsOf entry) state.modules module ∧ Ends fs entry module.path :=
  hcomplete.sound.finished hcomplete.quiet module hmem hkind (hcomplete.loaded module hmem)

theorem Complete.hasFile (hcomplete : Complete fs entry state) {path : Text}
    (hreach : Reachable fs entry path) : ∃ id, HasFile state.modules id path := by
  induction hreach with
  | refl => exact hcomplete.root
  | tail _ hstep ih =>
      obtain ⟨id, module, hmodule, hkind, rfl⟩ := ih
      have hmem := List.mem_of_getElem? hmodule
      exact (hcomplete.linked hmem hkind).1.target (hcomplete.sound.file module hmem hkind).2.2 hstep

theorem Complete.modules_end (hcomplete : Complete fs entry state) (id : ModuleId) :
    Acc (fun target source => ImportsModule state.modules source target) id := by
  have hbuiltin : ∀ (id : ModuleId) (module : Module), state.modules[id]? = some module →
      module.isBuiltinStdlib = true →
        Acc (fun target source => ImportsModule state.modules source target) id := by
    intro id module hmodule hkind
    refine Acc.intro _ fun target himports => ?_
    obtain ⟨source, hsource, hlink⟩ := himports
    rw [hmodule, Option.some.injEq] at hsource
    subst hsource
    obtain ⟨-, -, hnone, -⟩ := hcomplete.sound.builtin _ (List.mem_of_getElem? hmodule) hkind
    simp [hnone] at hlink
  -- along the imports of a file, on the chains of imports that start there
  have hfile : ∀ path, Ends fs entry path → ∀ id, HasFile state.modules id path →
      Acc (fun target source => ImportsModule state.modules source target) id := by
    intro path hends
    induction hends with
    | intro path _ ih =>
        rintro id ⟨module, hmodule, hkind, rfl⟩
        refine Acc.intro _ fun target himports => ?_
        obtain ⟨source, hsource, hlink⟩ := himports
        rw [hmodule, Option.some.injEq] at hsource
        subst hsource
        have hmem := List.mem_of_getElem? hmodule
        obtain ⟨found, hfound, hfollows⟩ := (hcomplete.linked hmem hkind).1.follows
          (hcomplete.sound.file _ hmem hkind).2.2 hlink
        cases hfoundKind : found.isBuiltinStdlib with
        | true => exact hbuiltin target found hfound hfoundKind
        | false =>
            exact ih found.path (hfollows hfoundKind) target ⟨found, hfound, hfoundKind, rfl⟩
  cases hmodule : state.modules[id]? with
  | none =>
      refine Acc.intro _ fun target himports => ?_
      obtain ⟨source, hsource, -⟩ := himports
      simp [hmodule] at hsource
  | some module =>
      cases hkind : module.isBuiltinStdlib with
      | true => exact hbuiltin id module hmodule hkind
      | false =>
          exact hfile module.path (hcomplete.linked (List.mem_of_getElem? hmodule) hkind).2 id
            ⟨module, hmodule, hkind, rfl⟩

end Complete

theorem projectLoad_answers {entryPath : Text}
    (hentry : makeAbsolutePath fs.cwd entryPath = some entry) (hload : Loadable fs entry)
    (hapart : BuiltinsApart fs entry) {fuel : Nat} {project : Project}
    (hproject : projectLoad fs fuel entryPath = some project) :
    Answers fs entry ⟨[], []⟩ entry (⟨project.modules, project.diagnostics⟩, project.root) := by
  have hempty : Sound fs entry ⟨[], []⟩ :=
    ⟨by simp, by simp, List.Pairwise.nil, by simp, by simp⟩
  simp only [projectLoad, hentry] at hproject
  cases hcall : loadModule fs (rootsOf entry) fuel ⟨[], []⟩ entryPath ⟨none, 0⟩ with
  | none => simp [hcall] at hproject
  | some loaded =>
      simp only [hcall, Option.some.injEq] at hproject
      subst hproject
      exact loadModule_answers hload hapart (makeAbsolutePath_isAbsolute fs.cwd_absolute hentry)
        fuel _ _ _ _ loaded hentry hempty .refl (fun module hmem => by simp at hmem) hcall

end Graph

/-- Loading ends, and it reports a cycle of imports just when there is one; otherwise the
modules and their links are the files and their imports. -/
theorem loading_follows_imports (fs : FileSystem) (entryPath entry : Text)
    (hentry : makeAbsolutePath fs.cwd entryPath = some entry) (hload : Loadable fs entry)
    (hapart : BuiltinsApart fs entry) :
    (∃ fuel project, projectLoad fs fuel entryPath = some project) ∧
    ∀ fuel project, projectLoad fs fuel entryPath = some project →
      ((∃ diagnostic ∈ project.diagnostics, diagnostic.code = .E3018) ↔ ImportCycle fs entry) ∧
      (¬ ImportCycle fs entry →
        project.diagnostics = [] ∧
        (∃ id, project.root = some id ∧ HasFile project.modules id entry) ∧
        (∀ path, Reachable fs entry path → ∃! id, HasFile project.modules id path) ∧
        (∀ module ∈ project.modules, module.isBuiltinStdlib = false →
          Reachable fs entry module.path ∧
            Linked fs (rootsOf entry) project.modules module) ∧
        ∀ id, ¬ Relation.TransGen (ImportsModule project.modules) id id) := by
  refine ⟨⟨_, projectLoad_returns fs entryPath⟩, fun fuel project hproject => ?_⟩
  have hanswers := projectLoad_answers hentry hload hapart hproject
  have hsound := hanswers.sound
  have hquiet : ¬ ImportCycle fs entry → project.diagnostics = [] := by
    intro hacyclic
    apply List.eq_nil_iff_forall_not_mem.mpr
    exact fun diagnostic hmem => hacyclic (hsound.cyclic diagnostic hmem).2
  refine ⟨⟨fun ⟨diagnostic, hmem, _⟩ => (hsound.cyclic diagnostic hmem).2, fun hcycle => ?_⟩,
    fun hacyclic => ?_⟩
  · cases hdiagnostics : project.diagnostics with
    | nil => exact absurd hcycle (hanswers.ends hdiagnostics).no_cycle
    | cons diagnostic rest =>
        have hmem : diagnostic ∈ project.diagnostics := by simp [hdiagnostics]
        exact ⟨diagnostic, by simp, (hsound.cyclic diagnostic hmem).1⟩
  · obtain ⟨id, target, hroot, htarget, hkind, hpath⟩ := hanswers.target
    have hloaded : ∀ module ∈ project.modules, module.loading = false := by
      obtain ⟨added, hadded, hfinished⟩ := hanswers.grown.modules
      rw [List.nil_append] at hadded
      exact fun module hmem => hfinished module (hadded ▸ hmem)
    have hcomplete : Complete fs entry ⟨project.modules, project.diagnostics⟩ :=
      ⟨hsound, hquiet hacyclic, hloaded, id, target, htarget, hkind, hpath⟩
    refine ⟨hquiet hacyclic, ⟨id, hroot, target, htarget, hkind, hpath⟩, fun path hreach => ?_,
      fun module hmem hfile => ?_, fun id => ?_⟩
    · obtain ⟨id, hid⟩ := hcomplete.hasFile hreach
      exact ⟨id, hid, fun other hother => hsound.hasFile_unique hother hid⟩
    · exact ⟨(hsound.file module hmem hfile).1, (hcomplete.linked hmem hfile).1⟩
    · exact Library.not_cycle_of_acc (hcomplete.modules_end id)

/-- Two modules of `/p` share `c` of the vendor root. -/
def diamondFiles : FileSystem where
  files := [
    (Name.text "/p/main.cneg", some ⟨[], [],
      [⟨Name.text "a", 0⟩, ⟨Name.text "b", 9⟩, ⟨Name.text "std.io", 18⟩]⟩),
    (Name.text "/p/a.cneg", some ⟨[], [], [⟨Name.text "c", 0⟩]⟩),
    (Name.text "/p/b.cneg", some ⟨[], [], [⟨Name.text "c", 0⟩]⟩),
    (Name.text "/p/vendor/c.cneg", some ⟨[], [], []⟩)]
  cwd := none
  cwd_absolute := FileSystem.absolute_of_none

theorem diamondFiles_closed :
    Closed diamondFiles (Name.text "/p/main.cneg") (diamondFiles.files.map Prod.fst) := by
  constructor <;> decide

theorem diamond_loads :
    ∃ project, projectLoad diamondFiles 5 (Name.text "/p/main.cneg") = some project ∧
      ((∃ diagnostic ∈ project.diagnostics, diagnostic.code = .E3018) ↔
        ImportCycle diamondFiles (Name.text "/p/main.cneg")) := by
  obtain ⟨project, hproject⟩ := projectLoad_returns diamondFiles (Name.text "/p/main.cneg")
  refine ⟨project, hproject, ?_⟩
  have hapart : BuiltinsApart diamondFiles (Name.text "/p/main.cneg") := by
    intro path hreach hbuiltin
    have hmem := hreach.mem_of_closed diamondFiles_closed.start diamondFiles_closed.closed
    have hnames : ∀ path ∈ diamondFiles.files.map Prod.fst, isBuiltinStdlibModuleName
        (projectModuleNameFromPath (rootsOf (Name.text "/p/main.cneg")) path) = false := by
      decide
    exact absurd hbuiltin.1 (Bool.eq_false_iff.mp (hnames path hmem))
  exact ((loading_follows_imports diamondFiles (Name.text "/p/main.cneg")
    (Name.text "/p/main.cneg") (by decide) diamondFiles_closed.loadable hapart).2 _ project
      hproject).1

/-- `x` lies beside a file `std/io.cneg`, and the entry imports the builtin `std.io`. -/
def shadowingFiles : FileSystem where
  files := [
    (Name.text "/p/main.cneg", some ⟨[], [], [⟨Name.text "std.io", 0⟩, ⟨Name.text "std.x", 14⟩]⟩),
    (Name.text "/p/std/x.cneg", some ⟨[], [], [⟨Name.text "io", 0⟩]⟩),
    (Name.text "/p/std/io.cneg", some ⟨[], [], []⟩)]
  cwd := none
  cwd_absolute := FileSystem.absolute_of_none

theorem shadowingFiles_acyclic :
    ¬ ImportCycle shadowingFiles (Name.text "/p/main.cneg") := by
  rintro ⟨path, -, hcycle⟩
  have hfiles : ∀ path ∈ shadowingFiles.files.map Prod.fst,
      ∀ target ∈ importTargets shadowingFiles (rootsOf (Name.text "/p/main.cneg")) path,
        3 - (shadowingFiles.files.map Prod.fst).idxOf target <
          3 - (shadowingFiles.files.map Prod.fst).idxOf path := by
    decide
  have hranks : Library.Ranks
      (Imports shadowingFiles (rootsOf (Name.text "/p/main.cneg")))
      (fun path => 3 - (shadowingFiles.files.map Prod.fst).idxOf path) := by
    intro first second himports
    exact hfiles first himports.mem_files second himports
  exact hranks.acyclic path hcycle

/-- The builtin module holds the name, and the import of the file is left without a module. -/
theorem builtin_name_blocks_file :
    ∃ fs entry, makeAbsolutePath fs.cwd entry = some entry ∧ Loadable fs entry ∧
      ¬ ImportCycle fs entry ∧ ∃ fuel project, projectLoad fs fuel entry = some project ∧
        ∃ module ∈ project.modules, none ∈ module.imports := by
  have hclosed : Closed shadowingFiles (Name.text "/p/main.cneg")
      (shadowingFiles.files.map Prod.fst) := by
    constructor <;> decide
  have hlost : ∃ project, projectLoad shadowingFiles 4 (Name.text "/p/main.cneg") = some project ∧
      ∃ module ∈ project.modules, none ∈ module.imports := by
    have hcheck : (projectLoad shadowingFiles 4 (Name.text "/p/main.cneg")).any
        (fun project => project.modules.any fun module => module.imports.contains none) = true := by
      decide
    simpa [Option.any_eq_true] using hcheck
  exact ⟨shadowingFiles, Name.text "/p/main.cneg", by decide, hclosed.loadable,
    shadowingFiles_acyclic, 4, hlost⟩

end Load

end Cnegative
