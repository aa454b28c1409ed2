import Mathlib.Data.List.TakeWhile
import Cnegative.Load.Names

namespace Cnegative

namespace Load

/-! Canonical names. A file below the vendor root is also below the project root, and
`cn_project_module_name_from_path` tries the project root first. -/

def pathBelowRoot (root path : Text) : Option Text :=
  match pathRelativeToRoot root path with
  | some (value :: relative) => some (value :: relative)
  | _ => none

/-- The documented name of a file: from its path below the vendor root, or else from its
path below the project root. -/
def documentedName (roots : Roots) (path : Text) : Option Text :=
  match pathBelowRoot roots.vendorRoot path with
  | some relative => some (pathModuleNameFromRelative relative)
  | none => (pathBelowRoot roots.projectRoot path).map pathModuleNameFromRelative

structure CanonicalNames (roots : Roots) (modules : List Module) : Prop where
  unique : modules.Pairwise fun first second => first.name ≠ second.name
  documented : ∀ module ∈ modules, module.isBuiltinStdlib = false →
    ∀ name ∈ documentedName roots module.path, module.name = name
  /-- Importing a vendor module by a name gives the module of that name. -/
  imported : ∀ module ∈ modules, ∀ decls ∈ module.program, ∀ (index : Nat) (decl : ImportDecl),
    decls[index]? = some decl → ∀ (id : ModuleId) (target : Module),
      module.imports[index]? = some (some id) → modules[id]? = some target →
      target.isBuiltinStdlib = false →
      (target.path = pathBuildImportPathFromRoot roots.vendorRoot decl.moduleName
          (Name.text ".cneg") ∨
        target.path = pathBuildImportPathFromRoot roots.vendorRoot decl.moduleName
          (Name.text ".cn")) →
      target.name = decl.moduleName

def VendorUnused (fs : FileSystem) (entry : Text) : Prop :=
  ∀ path, Reachable fs entry path → pathBelowRoot (rootsOf entry).vendorRoot path = none

/-! Paths below the vendor root. -/

theorem pathIsSeparator_pathSeparator : pathIsSeparator pathSeparator = true := by
  decide

theorem trimRoot_split (root : Text) : ∃ separators : Text, root = trimRoot root ++ separators ∧
    ∀ value ∈ separators, pathIsSeparator value = true := by
  cases root with
  | nil => exact ⟨[], rfl, by simp⟩
  | cons first rest =>
      refine ⟨(rest.reverse.takeWhile pathIsSeparator).reverse, ?_, fun value hvalue => ?_⟩
      · have hsplit : rest = (rest.reverse.dropWhile pathIsSeparator).reverse ++
            (rest.reverse.takeWhile pathIsSeparator).reverse := by
          rw [← List.reverse_append, List.takeWhile_append_dropWhile, List.reverse_reverse]
        simp only [trimRoot, List.cons_append, ← hsplit]
      · exact List.mem_takeWhile_imp (List.mem_reverse.mp hvalue)

theorem trimRoot_join_vendor (root : Text) :
    trimRoot (pathJoinComponent root (Name.text "vendor")) =
      pathJoinComponent root (Name.text "vendor") := by
  have hclean : ∀ front : Text, (front ++ Name.text "vendor").reverse.dropWhile pathIsSeparator =
      (front ++ Name.text "vendor").reverse := by
    intro front
    have hlast : (Name.text "vendor").reverse = 'r'.toUInt8 :: (Name.text "vendo").reverse := by
      decide
    rw [List.reverse_append, hlast, List.cons_append, List.dropWhile_cons_of_neg (by decide)]
  cases root with
  | nil =>
      simp only [pathJoinComponent, List.nil_append, trimRoot]
      rw [← List.nil_append (Name.text "vendor"), hclean]
      simp
  | cons first rest =>
      have hjoin : rest ++ pathSeparator :: Name.text "vendor" =
          (rest ++ [pathSeparator]) ++ Name.text "vendor" := by simp
      simp only [pathJoinComponent, List.cons_append, trimRoot]
      rw [hjoin, hclean, List.reverse_reverse]

theorem pathRelativeToRoot_split {root path relative : Text}
    (hrelative : pathRelativeToRoot root path = some relative) (hne : relative ≠ []) :
    ∃ separator, pathIsSeparator separator = true ∧
      path = trimRoot root ++ separator :: relative := by
  unfold pathRelativeToRoot at hrelative
  split at hrelative
  · rename_i hleading
    obtain ⟨rest, rfl⟩ := List.isPrefixOf_iff_prefix.mp hleading
    rw [List.drop_left] at hrelative
    cases rest with
    | nil =>
        rw [Option.some.injEq] at hrelative
        exact absurd hrelative.symm hne
    | cons separator rest =>
        simp only [Option.ite_none_right_eq_some, Option.some.injEq] at hrelative
        exact ⟨separator, hrelative.1, by rw [hrelative.2]⟩
  · simp at hrelative

theorem pathRelativeToRoot_append {root : Text} {separator : UInt8}
    (hseparator : pathIsSeparator separator = true) (relative : Text) :
    pathRelativeToRoot root (trimRoot root ++ separator :: relative) = some relative := by
  unfold pathRelativeToRoot
  rw [if_pos (List.isPrefixOf_iff_prefix.mpr (List.prefix_append _ _)), List.drop_left]
  simp [hseparator]

theorem pathBelowRoot_eq_some {root path relative : Text} :
    pathBelowRoot root path = some relative ↔
      pathRelativeToRoot root path = some relative ∧ relative ≠ [] := by
  unfold pathBelowRoot
  split
  · rename_i hrelative
    rw [hrelative]
    constructor
    · rintro hsame
      exact ⟨hsame, by simp [← Option.some.inj hsame]⟩
    · exact fun hboth => hboth.1
  · rename_i hother
    simp only [reduceCtorEq, false_iff, not_and, not_not]
    intro hrelative
    cases relative with
    | nil => rfl
    | cons value rest => exact absurd hrelative (hother value rest)

/-- Below the project root, the path of a vendor file is longer by `vendor/` at least. -/
theorem pathBelowRoot_vendor {root path relative : Text}
    (hbelow : pathBelowRoot (pathJoinComponent root (Name.text "vendor")) path = some relative) :
    ∃ longer, pathBelowRoot root path = some longer ∧ relative.length + 7 ≤ longer.length := by
  obtain ⟨hrelative, hne⟩ := pathBelowRoot_eq_some.mp hbelow
  obtain ⟨separator, -, rfl⟩ := pathRelativeToRoot_split hrelative hne
  rw [trimRoot_join_vendor]
  obtain ⟨separators, hroot, hseparators⟩ := trimRoot_split root
  have hpath : ∃ first longer, pathIsSeparator first = true ∧
      separators ++ pathSeparator :: (Name.text "vendor" ++ separator :: relative) =
        first :: longer ∧ relative.length + 7 ≤ longer.length := by
    have hvendor : (Name.text "vendor").length = 6 := by decide
    cases separators with
    | nil =>
        refine ⟨_, Name.text "vendor" ++ separator :: relative, pathIsSeparator_pathSeparator,
          rfl, ?_⟩
        simp only [List.length_append, List.length_cons, hvendor]
        omega
    | cons first rest =>
        refine ⟨_, rest ++ pathSeparator :: (Name.text "vendor" ++ separator :: relative),
          hseparators first (List.mem_cons_self ..), rfl, ?_⟩
        simp only [List.length_append, List.length_cons, hvendor]
        omega
  obtain ⟨first, longer, hfirst, hrest, hlength⟩ := hpath
  refine ⟨longer, pathBelowRoot_eq_some.mpr ⟨?_, ?_⟩, hlength⟩
  · have hwhole : pathJoinComponent root (Name.text "vendor") ++ separator :: relative =
        trimRoot root ++ first :: longer := by
      rw [← hrest]
      conv_lhs => rw [hroot]
      simp [pathJoinComponent]
    rw [hwhole]
    exact pathRelativeToRoot_append hfirst longer
  · rintro rfl
    simp at hlength

theorem length_pathStripKnownExtension (path : Text) :
    (pathStripKnownExtension path).length ≤ path.length ∧
      path.length ≤ (pathStripKnownExtension path).length + 5 := by
  unfold pathStripKnownExtension
  split
  · simp only [List.length_take]
    omega
  · split
    · simp only [List.length_take]
      omega
    · omega

theorem projectModuleNameFromPath_below {roots : Roots} {path relative : Text}
    (hbelow : pathBelowRoot roots.projectRoot path = some relative) :
    projectModuleNameFromPath roots path = pathModuleNameFromRelative relative := by
  obtain ⟨hrelative, hne⟩ := pathBelowRoot_eq_some.mp hbelow
  cases relative with
  | nil => contradiction
  | cons value rest => simp only [projectModuleNameFromPath, hrelative]

theorem vendor_name_differs {entry path relative : Text}
    (hbelow : pathBelowRoot (rootsOf entry).vendorRoot path = some relative) :
    projectModuleNameFromPath (rootsOf entry) path ≠ pathModuleNameFromRelative relative := by
  obtain ⟨longer, hlonger, hlength⟩ := pathBelowRoot_vendor hbelow
  rw [projectModuleNameFromPath_below hlonger]
  intro hsame
  have hlengths := congrArg List.length hsame
  simp only [pathModuleNameFromRelative, List.length_map] at hlengths
  have hleft := length_pathStripKnownExtension longer
  have hright := length_pathStripKnownExtension relative
  omega

theorem pathBelowRoot_import (root importName : Text) {extension : Text}
    (hextension : extension ≠ []) :
    ∃ relative, pathBelowRoot (pathJoinComponent root (Name.text "vendor"))
      (pathBuildImportPathFromRoot (pathJoinComponent root (Name.text "vendor")) importName
        extension) = some relative := by
  refine ⟨importName.map (fun value => if value == '.'.toUInt8 then pathSeparator else value) ++
    extension, pathBelowRoot_eq_some.mpr ⟨?_, ?_⟩⟩
  · rw [pathBuildImportPathFromRoot]
    have happend := @pathRelativeToRoot_append (pathJoinComponent root (Name.text "vendor"))
      pathSeparator pathIsSeparator_pathSeparator
      (importName.map (fun value => if value == '.'.toUInt8 then pathSeparator else value) ++
        extension)
    rwa [trimRoot_join_vendor] at happend
  · simp [hextension]

/-! A project without errors holds every file that the imports lead to. -/

section Project

variable {fs : FileSystem} {entry : Text} {labels : List Label}

/-- The labels of a search from the entry file that met no error. -/
structure Found (fs : FileSystem) (entry : Text) (labels : List Label) : Prop where
  labelled : Labelled fs entry labels
  start : ∃ label ∈ labels, label.isBuiltinStdlib = false ∧ label.path = entry
  covered : ∀ label ∈ labels, label.isBuiltinStdlib = false →
    Covers fs (rootsOf entry) labels label.path

theorem Found.file (hfound : Found fs entry labels) {path : Text}
    (hreach : Reachable fs entry path) : ∃ label ∈ labels, label.isBuiltinStdlib = false ∧
      label.path = path ∧ label.name = projectModuleNameFromPath (rootsOf entry) path := by
  have hlabel : ∃ label ∈ labels, label.isBuiltinStdlib = false ∧ label.path = path := by
    induction hreach with
    | refl => exact hfound.start
    | @tail path target _ hstep ih =>
        obtain ⟨label, hmem, hkind, hpath⟩ := ih
        have himports := hstep
        unfold Imports importTargets at himports
        split at himports
        · rename_i source hsource
          obtain ⟨decl, hdecl, htarget⟩ := (mem_importTargets hsource).mp hstep
          have hserves := hfound.covered label hmem hkind source (hpath ▸ hsource) decl hdecl
          rw [hpath] at hserves
          unfold Serves at hserves
          split at hserves
          · rename_i hbuiltin
            simp [importTarget, hbuiltin] at htarget
          · exact hserves target htarget
        · simp at himports
  obtain ⟨label, hmem, hkind, rfl⟩ := hlabel
  exact ⟨label, hmem, hkind, rfl, (hfound.labelled.file label hmem hkind).2⟩

theorem Found.builtin (hfound : Found fs entry labels) {name : Text}
    (hname : ImportsBuiltin fs entry name) :
    ∃ label ∈ labels, label.isBuiltinStdlib = true ∧ label.name = name := by
  obtain ⟨hbuiltin, path, source, hreach, hsource, decl, hdecl, rfl⟩ := hname
  obtain ⟨label, hmem, hkind, rfl, -⟩ := hfound.file hreach
  simpa [Serves, hbuiltin] using hfound.covered label hmem hkind source hsource decl hdecl

/-- Names are unique exactly when no file takes the name of a builtin module in use. -/
theorem Found.unique_iff (hfound : Found fs entry labels) :
    (labels.Pairwise fun first second => first.name ≠ second.name) ↔ BuiltinsApart fs entry := by
  constructor
  · intro hunique path hreach hbuiltin
    obtain ⟨file, hfile, hkind, -, hname⟩ := hfound.file hreach
    obtain ⟨builtin, hmem, hother, hsame⟩ := hfound.builtin hbuiltin
    have hnodup : (labels.map Label.name).Nodup := List.pairwise_map.mpr hunique
    have hone := List.inj_on_of_nodup_map hnodup hfile hmem (hname.trans hsame.symm)
    rw [hone, hother] at hkind
    contradiction
  · intro hapart
    refine hfound.labelled.apart.imp_of_mem fun {first second} hfirst hsecond hrest hname => ?_
    refine hrest (fun hkind => ?_) hname
    cases hfile : first.isBuiltinStdlib with
    | true => rfl
    | false =>
        obtain ⟨hreach, hfirstName⟩ := hfound.labelled.file first hfirst hfile
        have hbuiltin := (hfound.labelled.builtin second hsecond hkind).1
        rw [← hname, hfirstName] at hbuiltin
        exact absurd hbuiltin (hapart _ hreach)

theorem projectLoad_found {entryPath : Text} {fuel : Nat} {project : Project}
    (hentry : makeAbsolutePath fs.cwd entryPath = some entry)
    (hproject : projectLoad fs fuel entryPath = some project)
    (hquiet : project.diagnostics = []) :
    Found fs entry (project.modules.map Module.label) := by
  have habsolute := makeAbsolutePath_isAbsolute fs.cwd_absolute hentry
  simp only [projectLoad, hentry] at hproject
  cases hrun : loadModule fs (rootsOf entry) fuel ⟨[], []⟩ entryPath ⟨none, 0⟩ with
  | none => simp [hrun] at hproject
  | some loaded =>
      simp only [hrun, Option.some.injEq] at hproject
      subst hproject
      obtain ⟨hsearched, hstart⟩ := loadModule_finds habsolute fuel ⟨[], []⟩ entryPath entry
        ⟨none, 0⟩ loaded hentry Labelled.nil .refl hrun
      refine ⟨hsearched.labelled, hstart hquiet, fun label hmem hkind => ?_⟩
      rcases hsearched.covered hquiet label hmem hkind with hold | hcovers
      · simp [State.labels] at hold
      · exact hcovers

end Project

/-- In a project without errors the names are canonical exactly when no file of it lies
below the vendor root and none has the name of a builtin module in use. -/
theorem canonical_names_iff (fs : FileSystem) (fuel : Nat) {entryPath entry : Text}
    {project : Project} (hentry : makeAbsolutePath fs.cwd entryPath = some entry)
    (hproject : projectLoad fs fuel entryPath = some project)
    (hquiet : project.diagnostics = []) :
    CanonicalNames (rootsOf entry) project.modules ↔
      VendorUnused fs entry ∧ BuiltinsApart fs entry := by
  have hfound := projectLoad_found hentry hproject hquiet
  have hunique : (project.modules.Pairwise fun first second => first.name ≠ second.name) ↔
      BuiltinsApart fs entry := by
    rw [← hfound.unique_iff, List.pairwise_map]
    exact Iff.rfl
  have hfile : ∀ module ∈ project.modules, module.isBuiltinStdlib = false →
      Reachable fs entry module.path ∧
        module.name = projectModuleNameFromPath (rootsOf entry) module.path :=
    fun module hmem => hfound.labelled.file module.label (List.mem_map_of_mem hmem)
  constructor
  · refine fun hnames => ⟨fun path hreach => ?_, hunique.mp hnames.unique⟩
    cases hbelow : pathBelowRoot (rootsOf entry).vendorRoot path with
    | none => rfl
    | some relative =>
        obtain ⟨label, hlabel, hkind, rfl, hname⟩ := hfound.file hreach
        obtain ⟨module, hmem, rfl⟩ := List.mem_map.mp hlabel
        have hdocumented := hnames.documented module hmem hkind
          (pathModuleNameFromRelative relative)
          (by simp [documentedName, show pathBelowRoot (rootsOf entry).vendorRoot module.path =
            some relative from hbelow])
        exact absurd (hname.symm.trans hdocumented) (vendor_name_differs hbelow)
  · rintro ⟨hvendor, hapart⟩
    refine ⟨hunique.mpr hapart, ?_, ?_⟩
    · intro module hmem hkind name hname
      obtain ⟨hreach, hmodule⟩ := hfile module hmem hkind
      simp only [documentedName, hvendor _ hreach, Option.mem_def, Option.map_eq_some_iff] at hname
      obtain ⟨relative, hbelow, rfl⟩ := hname
      rw [hmodule, projectModuleNameFromPath_below hbelow]
    · intro module _ decls _ index decl _ id target _ htarget hkind hpath
      obtain ⟨hreach, -⟩ := hfile target (List.mem_of_getElem? htarget) hkind
      have hnone := hvendor _ hreach
      cases hpath with
      | inl hcneg =>
          obtain ⟨relative, hbelow⟩ := @pathBelowRoot_import (rootsOf entry).projectRoot
            decl.moduleName (Name.text ".cneg") (by decide)
          rw [hcneg] at hnone
          exact absurd (hbelow.symm.trans hnone) (by simp)
      | inr hcn =>
          obtain ⟨relative, hbelow⟩ := @pathBelowRoot_import (rootsOf entry).projectRoot
            decl.moduleName (Name.text ".cn") (by decide)
          rw [hcn] at hnone
          exact absurd (hbelow.symm.trans hnone) (by simp)

/-- One file with an import of the builtin `std.io`. -/
def helloFiles : FileSystem where
  files := [
    (Name.text "/p/main.cneg", some ⟨[], [], [⟨Name.text "std.io", 0⟩, ⟨Name.text "a", 14⟩]⟩),
    (Name.text "/p/a.cneg", some ⟨[], [], []⟩)]
  cwd := none
  cwd_absolute := FileSystem.absolute_of_none

theorem canonical_names_hello :
    ∃ project, projectLoad helloFiles 3 (Name.text "/p/main.cneg") = some project ∧
      (CanonicalNames (rootsOf (Name.text "/p/main.cneg")) project.modules ↔
        VendorUnused helloFiles (Name.text "/p/main.cneg") ∧
          BuiltinsApart helloFiles (Name.text "/p/main.cneg")) := by
  obtain ⟨project, hproject⟩ := projectLoad_returns helloFiles (Name.text "/p/main.cneg")
  have hquiet : (projectLoad helloFiles 3 (Name.text "/p/main.cneg")).all
      (fun project => project.diagnostics.isEmpty) = true := by
    decide
  refine ⟨project, hproject, canonical_names_iff helloFiles 3 (by decide) hproject ?_⟩
  rw [show projectLoad helloFiles 3 _ = some project from hproject] at hquiet
  simpa using hquiet

/-- The entry imports `vendorlib.echo` from the vendor root. -/
def vendorFiles : FileSystem where
  files := [
    (Name.text "/p/main.cneg", some ⟨[], [], [⟨Name.text "vendorlib.echo", 0⟩]⟩),
    (Name.text "/p/vendor/vendorlib/echo.cneg", some ⟨[], [], []⟩)]
  cwd := none
  cwd_absolute := FileSystem.absolute_of_none

/-- A file `std/io.cneg` is imported by its neighbour before another file imports `std.io`. -/
def takenFiles : FileSystem where
  files := [
    (Name.text "/p/main.cneg", some ⟨[], [], [⟨Name.text "std.x", 0⟩, ⟨Name.text "std.io", 14⟩]⟩),
    (Name.text "/p/std/x.cneg", some ⟨[], [], [⟨Name.text "io", 0⟩]⟩),
    (Name.text "/p/std/io.cneg", some ⟨[], [], []⟩)]
  cwd := none
  cwd_absolute := FileSystem.absolute_of_none

/-- Both files load without errors: the vendor file is named `vendor.vendorlib.echo`, and
two modules are named `std.io`. -/
theorem vendor_and_taken_names :
    (∃ project, projectLoad vendorFiles 3 (Name.text "/p/main.cneg") = some project ∧
      project.diagnostics = [] ∧
      project.modules.map (fun module => module.name) =
        [Name.text "main", Name.text "vendor.vendorlib.echo"] ∧
      ¬ CanonicalNames (rootsOf (Name.text "/p/main.cneg")) project.modules) ∧
    ∃ project, projectLoad takenFiles 4 (Name.text "/p/main.cneg") = some project ∧
      project.diagnostics = [] ∧
      project.modules.map (fun module => module.name) =
        [Name.text "main", Name.text "std.x", Name.text "std.io", Name.text "std.io"] ∧
      ¬ CanonicalNames (rootsOf (Name.text "/p/main.cneg")) project.modules := by
  have hvendor : (projectLoad vendorFiles 3 (Name.text "/p/main.cneg")).any (fun project =>
      project.diagnostics.isEmpty &&
      project.modules.map (fun module => module.name) ==
        [Name.text "main", Name.text "vendor.vendorlib.echo"] &&
      project.modules.any fun module => !module.isBuiltinStdlib &&
        (documentedName (rootsOf (Name.text "/p/main.cneg")) module.path).any
          (fun name => name != module.name)) = true := by
    decide
  have htaken : (projectLoad takenFiles 4 (Name.text "/p/main.cneg")).any (fun project =>
      project.diagnostics.isEmpty &&
      project.modules.map (fun module => module.name) ==
        [Name.text "main", Name.text "std.x", Name.text "std.io", Name.text "std.io"]) = true := by
    decide
  constructor
  · simp only [Option.any_eq_true, Bool.and_eq_true, List.isEmpty_iff, beq_iff_eq,
      List.any_eq_true, Bool.not_eq_true', bne_iff_ne] at hvendor
    obtain ⟨project, hproject, ⟨hquiet, hnames⟩, module, hmem, hkind, name, hname, hne⟩ := hvendor
    exact ⟨project, hproject, hquiet, hnames, fun hcanonical =>
      hne (hcanonical.documented module hmem hkind name hname).symm⟩
  · simp only [Option.any_eq_true, Bool.and_eq_true, List.isEmpty_iff, beq_iff_eq] at htaken
    obtain ⟨project, hproject, hquiet, hnames⟩ := htaken
    refine ⟨project, hproject, hquiet, hnames, fun hcanonical => ?_⟩
    have hunique := List.pairwise_map.mpr hcanonical.unique
    rw [hnames] at hunique
    simp at hunique

end Load

end Cnegative
