import Cnegative.Check.Accepted
import Cnegative.Library.Search
import Cnegative.Resolution.Lowering

namespace Cnegative

open Library (IsFirst IsLast findLastIdx? isFirst_of_findIdx? isLast_of_findLastIdx?
  findLastIdx?_eq_none_iff findLastIdx?_append_singleton find?_reverse_of_nodup)
open Checker (Resolved)

/-! The two resolvers side by side.  The checker keeps the last import that
answers to a name, the lowering takes the first one. -/

def ImportDecl.answersTo (name : Name) (decl : ImportDecl) : Bool :=
  decl.aliasName == name || decl.moduleName == name

theorem ImportDecl.answersTo_iff {name : Name} {decl : ImportDecl} :
    decl.answersTo name = true ↔ decl.aliasName = name ∨ decl.moduleName = name := by
  simp [answersTo]

namespace Checker

theorem lookup_insertImports (imports : List ImportDecl) (name : Name) :
    (imports.zipIdx.foldl
      (fun map entry =>
        (map.insert entry.1.moduleName entry.2 true).insert entry.1.aliasName entry.2 true)
      NameMap.empty).lookup name = findLastIdx? (ImportDecl.answersTo name) imports := by
  induction imports using List.reverseRecOn with
  | nil => rfl
  | append_singleton rest decl ih =>
      rw [findLastIdx?_append_singleton, List.zipIdx_append, List.foldl_append, ← ih]
      by_cases halias : decl.aliasName = name
      · simp [ImportDecl.answersTo, halias]
      · by_cases hmodule : decl.moduleName = name
        · simp [ImportDecl.answersTo, halias, hmodule]
        · simp [ImportDecl.answersTo, halias, hmodule]

theorem findImportedModule_eq (module : Module) (name : Name) :
    findImportedModule module name =
      (findLastIdx? (ImportDecl.answersTo name) module.program.imports).bind
        fun index => (module.imports[index]?).join := by
  rw [findImportedModule, importIndices, lookup_insertImports]
  cases findLastIdx? (ImportDecl.answersTo name) module.program.imports <;> rfl

end Checker

namespace Lowering

theorem findImportedModule_eq (module : Module) (name : Name) :
    findImportedModule module name =
      (module.program.imports.findIdx? (ImportDecl.answersTo name)).bind
        fun index => (module.imports[index]?).join := by
  simp only [findImportedModule, findImportDecl]
  rw [show (fun decl : ImportDecl => decl.aliasName == name || decl.moduleName == name) =
    ImportDecl.answersTo name from rfl]
  cases module.program.imports.findIdx? (ImportDecl.answersTo name) <;> rfl

end Lowering

namespace Module.ImportsResolved

variable {project : Project} {self : ModuleId} {module : Module}

theorem loadedImports_eq (hresolved : module.ImportsResolved project self) :
    Check.loadedImports module = module.program.imports := by
  have hall : (module.program.imports.zip module.imports).filter
      (fun entry => entry.2.isSome) = module.program.imports.zip module.imports := by
    rw [List.filter_eq_self]
    intro entry hentry
    obtain ⟨id, htarget, -⟩ := hresolved.resolved entry.2 (List.of_mem_zip hentry).2
    simp [htarget]
  rw [Check.loadedImports, hall, List.map_fst_zip (Nat.le_of_eq hresolved.length_eq.symm)]

theorem target (hresolved : module.ImportsResolved project self) {index : Nat}
    {decl : ImportDecl} (hdecl : module.program.imports[index]? = some decl) :
    ∃ id, module.imports[index]? = some (some id) ∧ id < project.modules.length ∧ id ≠ self := by
  have hlt : index < module.imports.length := by
    rw [hresolved.length_eq]
    exact (List.getElem?_eq_some_iff.mp hdecl).1
  obtain ⟨id, hid, hbound, hself⟩ := hresolved.resolved _ (List.getElem_mem hlt)
  exact ⟨id, by rw [List.getElem?_eq_getElem hlt, hid], hbound, hself⟩

end Module.ImportsResolved

theorem alias_index_unique {imports : List ImportDecl}
    (haliases : (imports.map (·.aliasName)).Nodup) {i j : Nat} {first second : ImportDecl}
    (hfirst : imports[i]? = some first) (hsecond : imports[j]? = some second)
    (halias : first.aliasName = second.aliasName) : i = j := by
  have hi : (imports.map (·.aliasName))[i]? = some first.aliasName := by simp [hfirst]
  have hj : (imports.map (·.aliasName))[j]? = some first.aliasName := by simp [hsecond, halias]
  exact (List.getElem?_inj (List.getElem?_eq_some_iff.mp hi).1 haliases).mp (hi.trans hj.symm)

/-- The alias of import `i` is also the module name of an import before it and
of one after it. -/
def Module.AliasEnclosed (module : Module) (i : Nat) (name : Name) : Prop :=
  (∃ before < i, ∃ decl, module.program.imports[before]? = some decl ∧ decl.moduleName = name) ∧
    ∃ after, i < after ∧
      ∃ decl, module.program.imports[after]? = some decl ∧ decl.moduleName = name

section Imports

variable {project : Project} {self : ModuleId} {module : Module}

/-- How the two import searches answer a name some import answers to. -/
theorem findImportedModule_cases (hresolved : module.ImportsResolved project self) (name : Name) :
    (Checker.findImportedModule module name = none ∧
      Lowering.findImportedModule module name = none ∧
      ∀ (i : Nat) (decl : ImportDecl), module.program.imports[i]? = some decl →
        decl.answersTo name = false) ∨
    ∃ first last firstId lastId,
      IsFirst (ImportDecl.answersTo name) module.program.imports first ∧
      IsLast (ImportDecl.answersTo name) module.program.imports last ∧
      module.imports[first]? = some (some firstId) ∧
      module.imports[last]? = some (some lastId) ∧
      firstId ≠ self ∧ lastId ≠ self ∧
      Lowering.findImportedModule module name = some firstId ∧
      Checker.findImportedModule module name = some lastId := by
  rw [Checker.findImportedModule_eq, Lowering.findImportedModule_eq]
  cases hlast : findLastIdx? (ImportDecl.answersTo name) module.program.imports with
  | none =>
      have hfirst := (findLastIdx?_eq_none_iff _ _).mp hlast
      left
      refine ⟨rfl, by rw [hfirst]; rfl, ?_⟩
      intro i decl hdecl
      exact List.findIdx?_eq_none_iff.mp hfirst decl (List.mem_of_getElem? hdecl)
  | some last =>
      right
      cases hfirst : module.program.imports.findIdx? (ImportDecl.answersTo name) with
      | none => simp [(findLastIdx?_eq_none_iff _ _).mpr hfirst] at hlast
      | some first =>
          have hisFirst := isFirst_of_findIdx? hfirst
          have hisLast := isLast_of_findLastIdx? hlast
          obtain ⟨decl, hdecl, -⟩ := hisFirst.1
          obtain ⟨decl', hdecl', -⟩ := hisLast.1
          obtain ⟨firstId, hfirstId, -, hfirstSelf⟩ := hresolved.target hdecl
          obtain ⟨lastId, hlastId, -, hlastSelf⟩ := hresolved.target hdecl'
          exact ⟨first, last, firstId, lastId, hisFirst, hisLast, hfirstId, hlastId, hfirstSelf,
            hlastSelf, by simp [hfirstId], by simp [hlastId]⟩

section Ends

variable {name : Name} {f l : Nat}

/-- Where the outermost imports agree, an import whose alias is the module name of another one
goes with it or stands between two that have the module name. -/
theorem aliasEnclosed_of_same (hresolved : module.ImportsResolved project self)
    (haliases : (module.program.imports.map (·.aliasName)).Nodup)
    (hfirst : IsFirst (ImportDecl.answersTo name) module.program.imports f)
    (hlast : IsLast (ImportDecl.answersTo name) module.program.imports l)
    (hsame : module.imports[l]? = module.imports[f]?) {i j : Nat} {first second : ImportDecl}
    (hi : module.program.imports[i]? = some first)
    (hj : module.program.imports[j]? = some second) (halias : first.aliasName = name)
    (hmodule : second.moduleName = name) (htarget : module.imports[i]? ≠ module.imports[j]?) :
    module.AliasEnclosed i name := by
  obtain ⟨firstDecl, hfirstDecl, hfirstAnswers⟩ := hfirst.1
  obtain ⟨lastDecl, hlastDecl, hlastAnswers⟩ := hlast.1
  rw [ImportDecl.answersTo_iff] at hfirstAnswers hlastAnswers
  have hfi := hfirst.le hi (ImportDecl.answersTo_iff.mpr (.inl halias))
  have hil := hlast.le hi (ImportDecl.answersTo_iff.mpr (.inl halias))
  have hgoes : ∀ {k : Nat} {decl : ImportDecl}, module.program.imports[k]? = some decl →
      decl.moduleName = name → module.imports[k]? = module.imports[j]? := by
    intro k decl hdecl hnamed
    exact hresolved.deterministic k j decl second hdecl hj (hnamed.trans hmodule.symm)
  have hfirstModule : firstDecl.moduleName = name := by
    refine hfirstAnswers.resolve_left fun halias' => htarget ?_
    have hfi' := alias_index_unique haliases hfirstDecl hi (halias'.trans halias.symm)
    subst hfi'
    rcases hlastAnswers with hlastAlias | hlastModule
    · have hlf := alias_index_unique haliases hlastDecl hi (hlastAlias.trans halias.symm)
      have hjl := hlast.le hj (ImportDecl.answersTo_iff.mpr (.inr hmodule))
      have hfj := hfirst.le hj (ImportDecl.answersTo_iff.mpr (.inr hmodule))
      have hfj' : f = j := by omega
      rw [hfj']
    · rw [← hsame]
      exact hgoes hlastDecl hlastModule
  have hlastModule : lastDecl.moduleName = name := by
    refine hlastAnswers.resolve_left fun halias' => htarget ?_
    have hli := alias_index_unique haliases hlastDecl hi (halias'.trans halias.symm)
    subst hli
    rw [hsame]
    exact hgoes hfirstDecl hfirstModule
  have hfne : f ≠ i := by
    rintro rfl
    exact htarget (hgoes hfirstDecl hfirstModule)
  have hlne : l ≠ i := by
    rintro rfl
    exact htarget (hgoes hlastDecl hlastModule)
  exact ⟨⟨f, by omega, firstDecl, hfirstDecl, hfirstModule⟩,
    ⟨l, by omega, lastDecl, hlastDecl, hlastModule⟩⟩

theorem same_of_aliasEnclosed (hresolved : module.ImportsResolved project self)
    (haliases : (module.program.imports.map (·.aliasName)).Nodup)
    (hfirst : IsFirst (ImportDecl.answersTo name) module.program.imports f)
    (hlast : IsLast (ImportDecl.answersTo name) module.program.imports l)
    (hagree : ∀ (i j : Nat) (first second : ImportDecl),
      module.program.imports[i]? = some first → module.program.imports[j]? = some second →
      first.aliasName = name → second.moduleName = name →
      module.imports[i]? = module.imports[j]? ∨ module.AliasEnclosed i name) :
    module.imports[l]? = module.imports[f]? := by
  obtain ⟨firstDecl, hfirstDecl, hfirstAnswers⟩ := hfirst.1
  obtain ⟨lastDecl, hlastDecl, hlastAnswers⟩ := hlast.1
  rw [ImportDecl.answersTo_iff] at hfirstAnswers hlastAnswers
  rcases hfirstAnswers with hfirstAlias | hfirstModule
  · rcases hlastAnswers with hlastAlias | hlastModule
    · rw [alias_index_unique haliases hlastDecl hfirstDecl (hlastAlias.trans hfirstAlias.symm)]
    · rcases hagree f l firstDecl lastDecl hfirstDecl hlastDecl hfirstAlias hlastModule with
        htarget | ⟨⟨k, hk, decl, hdecl, hmodule⟩, -⟩
      · exact htarget.symm
      · have := hfirst.le hdecl (ImportDecl.answersTo_iff.mpr (.inr hmodule))
        omega
  · rcases hlastAnswers with hlastAlias | hlastModule
    · rcases hagree l f lastDecl firstDecl hlastDecl hfirstDecl hlastAlias hfirstModule with
        htarget | ⟨-, ⟨k, hk, decl, hdecl, hmodule⟩⟩
      · exact htarget
      · have := hlast.le hdecl (ImportDecl.answersTo_iff.mpr (.inr hmodule))
        omega
    · exact hresolved.deterministic l f lastDecl firstDecl hlastDecl hfirstDecl
        (hlastModule.trans hfirstModule.symm)

end Ends

/-- Two imports that answer to one name pull it apart: an alias and the module
name of another import, neither enclosed by the other. -/
theorem findImportedModule_eq_iff (hresolved : module.ImportsResolved project self)
    (haliases : (module.program.imports.map (·.aliasName)).Nodup) (name : Name) :
    Checker.findImportedModule module name = Lowering.findImportedModule module name ↔
      ∀ (i j : Nat) (first second : ImportDecl),
        module.program.imports[i]? = some first → module.program.imports[j]? = some second →
        first.aliasName = name → second.moduleName = name →
        module.imports[i]? = module.imports[j]? ∨ module.AliasEnclosed i name := by
  rcases findImportedModule_cases hresolved name with ⟨hchecker, hlowering, hnone⟩ |
    ⟨f, l, firstId, lastId, hfirst, hlast, hfirstId, hlastId, -, -, hlowering, hchecker⟩
  · simp only [hchecker, hlowering, true_iff]
    intro i j first second hi hj halias hmodule
    have hanswers := hnone i first hi
    simp [ImportDecl.answersTo, halias] at hanswers
  · have hids : lastId = firstId ↔ module.imports[l]? = module.imports[f]? := by
      rw [hlastId, hfirstId, Option.some.injEq, Option.some.injEq]
    rw [hchecker, hlowering, Option.some.injEq, hids]
    constructor
    · intro hsame i j first second hi hj halias hmodule
      by_cases htarget : module.imports[i]? = module.imports[j]?
      · exact .inl htarget
      · exact .inr (aliasEnclosed_of_same hresolved haliases hfirst hlast hsame hi hj halias
          hmodule htarget)
    · exact same_of_aliasEnclosed hresolved haliases hfirst hlast

end Imports

/-! With distinct names the symbol maps and the linear searches agree. -/

namespace NameMap

variable {α : Type} {key : α → Name} {decls : List α}

theorem lookup_ofDecls_filter (hnodup : (decls.map key).Nodup) (accept : α → Bool)
    (name : Name) :
    (ofDecls key (decls.filter accept)).lookup name =
      decls.find? (fun decl => accept decl && key decl == name) := by
  rw [lookup_ofDecls, ← List.filter_reverse, List.find?_filter,
    ← find?_reverse_of_nodup hnodup accept name]
  congr 1
  funext decl
  rw [Bool.eq_iff_iff]
  simp

theorem lookup_ofDecls_of_nodup (hnodup : (decls.map key).Nodup) (name : Name) :
    (ofDecls key decls).lookup name = decls.find? (fun decl => key decl == name) := by
  have hfilter := lookup_ofDecls_filter hnodup (fun _ => true) name
  simpa using hfilter

end NameMap

section Declarations

variable {project : Project} {self : ModuleId} {module : Module}

theorem lookup_localConsts (haccepted : Check.Accepted project)
    (hmodule : project.modules[self]? = some module) (name : Name) :
    (Checker.localConsts module.program).lookup name =
      Lowering.findConst module.program name :=
  NameMap.lookup_ofDecls_of_nodup (haccepted.nodup_consts hmodule) name

theorem lookup_publicConsts (haccepted : Check.Accepted project)
    (hmodule : project.modules[self]? = some module) (name : Name) :
    (Checker.publicConsts module.program).lookup name =
      Lowering.findPublicConst module.program name :=
  NameMap.lookup_ofDecls_filter (haccepted.nodup_consts hmodule) (·.isPublic) name

theorem lookup_localStructs (haccepted : Check.Accepted project)
    (hmodule : project.modules[self]? = some module) (name : Name) :
    (Checker.localStructs module.program).lookup name =
      Lowering.findStruct module.program name :=
  NameMap.lookup_ofDecls_of_nodup (haccepted.nodup_structs hmodule) name

theorem lookup_publicStructs (haccepted : Check.Accepted project)
    (hmodule : project.modules[self]? = some module) (name : Name) :
    (Checker.publicStructs module.program).lookup name =
      Lowering.findPublicStruct module.program name :=
  NameMap.lookup_ofDecls_filter (haccepted.nodup_structs hmodule) (·.isPublic) name

theorem lookup_localFunctions (haccepted : Check.Accepted project)
    (hmodule : project.modules[self]? = some module) (name : Name) :
    (Checker.localFunctions module.program).lookup name =
      Lowering.findLocalFunction module.program name :=
  NameMap.lookup_ofDecls_of_nodup (haccepted.nodup_functions hmodule) name

theorem lookup_publicFunctions (haccepted : Check.Accepted project)
    (hmodule : project.modules[self]? = some module) (name : Name) :
    (Checker.publicFunctions module.program).lookup name =
      Lowering.findPublicFunction module.program name :=
  NameMap.lookup_ofDecls_filter (haccepted.nodup_functions hmodule) (·.isPublic) name

theorem resolveConstInModule_eq (haccepted : Check.Accepted project) (id : ModuleId)
    (name : Name) :
    Checker.resolveConstInModule project id name =
      Lowering.resolveConstInModule project id name := by
  rw [Checker.resolveConstInModule, Lowering.resolveConstInModule]
  cases hmodule : project.modules[id]? with
  | none => rfl
  | some module => simp [lookup_localConsts haccepted hmodule]

theorem resolveStructInModule_eq (haccepted : Check.Accepted project) (id : ModuleId)
    (name : Name) :
    Checker.resolveStructInModule project id name =
      Lowering.resolveStructInModule project id name := by
  rw [Checker.resolveStructInModule, Lowering.resolveStructInModule]
  cases hmodule : project.modules[id]? with
  | none => rfl
  | some module => simp [lookup_localStructs haccepted hmodule]

theorem resolveLocalFunction_eq (haccepted : Check.Accepted project) (id : ModuleId)
    (name : Name) :
    Checker.resolveLocalFunction project id name =
      Lowering.resolveLocalFunction project id name := by
  rw [Checker.resolveLocalFunction, Lowering.resolveLocalFunction]
  cases hmodule : project.modules[id]? with
  | none => rfl
  | some module => simp [lookup_localFunctions haccepted hmodule]

/-- What a module offers through an import: the public declaration a kind of
search finds in it. -/
def exportOf {α : Type} (project : Project) (find : Program → Name → Option α)
    (id : ModuleId) (name : Name) : Option (Resolved α) := do
  let other ← project.modules[id]?
  let decl ← find other.program name
  return (id, decl)

theorem exportOf_eq_map {α : Type} {find : Program → Name → Option α} {id : ModuleId}
    {other : Module} (hother : project.modules[id]? = some other) (name : Name) :
    exportOf project find id name = (find other.program name).map fun decl => (id, decl) := by
  cases hfind : find other.program name <;> simp [exportOf, hother, hfind]

theorem exportOf_fst {α : Type} {find : Program → Name → Option α} {id : ModuleId} {name : Name}
    {resolved : Resolved α} (hexport : exportOf project find id name = some resolved) :
    resolved.1 = id := by
  cases hmodule : project.modules[id]? with
  | none => simp [exportOf, hmodule] at hexport
  | some other =>
      rw [exportOf_eq_map hmodule] at hexport
      obtain ⟨decl, -, rfl⟩ := Option.map_eq_some_iff.mp hexport
      rfl

/-- Two different modules offer the same declarations only when they offer none. -/
theorem exportOf_eq_iff {α : Type} {find : Program → Name → Option α} {first second : ModuleId}
    (hne : first ≠ second) (name : Name) :
    exportOf project find first name = exportOf project find second name ↔
      exportOf project find first name = none ∧ exportOf project find second name = none := by
  constructor
  · intro heq
    cases hfirst : exportOf project find first name with
    | none => exact ⟨rfl, by rw [← heq, hfirst]⟩
    | some resolved =>
        rw [hfirst] at heq
        exact absurd ((exportOf_fst hfirst).symm.trans (exportOf_fst heq.symm)) hne
  · rintro ⟨hfirst, hsecond⟩
    rw [hfirst, hsecond]

theorem Checker.resolveModuleFunction_eq (haccepted : Check.Accepted project)
    (hmodule : project.modules[self]? = some module) (moduleName functionName : Name) :
    Checker.resolveModuleFunction project self moduleName functionName =
      (Checker.findImportedModule module moduleName).bind
        fun id => exportOf project Lowering.findPublicFunction id functionName := by
  simp only [Checker.resolveModuleFunction, hmodule, exportOf]
  cases himported : Checker.findImportedModule module moduleName with
  | none => simp [himported]
  | some id =>
      cases hother : project.modules[id]? with
      | none => simp [himported, hother]
      | some other => simp [himported, hother, lookup_publicFunctions haccepted hother]

theorem Lowering.resolveModuleFunction_eq
    (hmodule : project.modules[self]? = some module) (moduleName functionName : Name) :
    Lowering.resolveModuleFunction project self moduleName functionName =
      (Lowering.findImportedModule module moduleName).bind
        fun id => exportOf project Lowering.findPublicFunction id functionName := by
  simp [Lowering.resolveModuleFunction, hmodule, exportOf]

/-- A qualified constant or struct, once the module it names is known: the own
module offers everything, another one its public declarations. -/
def qualified {α : Type} (project : Project) (self : ModuleId)
    (findOwn findExported : Program → Name → Option α) (name : Name)
    (target : Option ModuleId) : Option (Resolved α) :=
  target.bind fun id =>
    if id = self then exportOf project findOwn id name else exportOf project findExported id name

theorem Checker.resolveSourceNamedConst_eq (haccepted : Check.Accepted project)
    (hmodule : project.modules[self]? = some module) (moduleName name : Name) :
    Checker.resolveSourceNamedConst project self moduleName name =
      qualified project self Lowering.findConst Lowering.findPublicConst name
        (Checker.resolveSourceNamedModule self module moduleName) := by
  cases htarget : Checker.resolveSourceNamedModule self module moduleName with
  | none => simp [Checker.resolveSourceNamedConst, hmodule, htarget, qualified]
  | some id =>
      by_cases hself : id = self
      · simp [Checker.resolveSourceNamedConst, hmodule, htarget, qualified, hself, exportOf,
          Checker.resolveConstInModule, lookup_localConsts haccepted hmodule]
      · cases hother : project.modules[id]? with
        | none => simp [Checker.resolveSourceNamedConst, hmodule, htarget, qualified, hself,
            exportOf, hother]
        | some other => simp [Checker.resolveSourceNamedConst, hmodule, htarget, qualified,
            hself, exportOf, hother, lookup_publicConsts haccepted hother]

theorem Lowering.resolveSourceNamedConst_eq
    (hmodule : project.modules[self]? = some module) (moduleName name : Name) :
    Lowering.resolveSourceNamedConst project self moduleName name =
      qualified project self Lowering.findConst Lowering.findPublicConst name
        (Lowering.resolveSourceNamedModule self module moduleName) := by
  simp [Lowering.resolveSourceNamedConst, hmodule, qualified, exportOf,
    Lowering.resolveConstInModule]

theorem Checker.resolveSourceNamedStruct_eq (haccepted : Check.Accepted project)
    (hmodule : project.modules[self]? = some module) (moduleName name : Name) :
    Checker.resolveSourceNamedStruct project self moduleName name =
      qualified project self Lowering.findStruct Lowering.findPublicStruct name
        (Checker.resolveSourceNamedModule self module moduleName) := by
  cases htarget : Checker.resolveSourceNamedModule self module moduleName with
  | none => simp [Checker.resolveSourceNamedStruct, hmodule, htarget, qualified]
  | some id =>
      by_cases hself : id = self
      · simp [Checker.resolveSourceNamedStruct, hmodule, htarget, qualified, hself, exportOf,
          Checker.resolveStructInModule, lookup_localStructs haccepted hmodule]
      · cases hother : project.modules[id]? with
        | none => simp [Checker.resolveSourceNamedStruct, hmodule, htarget, qualified, hself,
            exportOf, hother]
        | some other => simp [Checker.resolveSourceNamedStruct, hmodule, htarget, qualified,
            hself, exportOf, hother, lookup_publicStructs haccepted hother]

theorem Lowering.resolveSourceNamedStruct_eq
    (hmodule : project.modules[self]? = some module) (moduleName name : Name) :
    Lowering.resolveSourceNamedStruct project self moduleName name =
      qualified project self Lowering.findStruct Lowering.findPublicStruct name
        (Lowering.resolveSourceNamedModule self module moduleName) := by
  simp [Lowering.resolveSourceNamedStruct, hmodule, qualified, exportOf,
    Lowering.resolveStructInModule]

/-- For the name of a loaded module, and for an unqualified name, the canonical
resolvers never look at the imports. -/
theorem resolveCanonicalNamedStruct_eq (haccepted : Check.Accepted project)
    {moduleName : Name} (hknown : moduleName = "" ∨ (project.findModuleByName moduleName).isSome)
    (name : Name) :
    Checker.resolveCanonicalNamedStruct project self moduleName name =
      Lowering.resolveCanonicalNamedStruct project self moduleName name := by
  simp only [Checker.resolveCanonicalNamedStruct, Lowering.resolveCanonicalNamedStruct,
    resolveStructInModule_eq haccepted]
  cases hmodule : project.modules[self]? with
  | none => rfl
  | some module =>
      have htarget : Checker.resolveCanonicalNamedModule project self module moduleName =
          Lowering.resolveCanonicalNamedModule project self module moduleName := by
        rw [Checker.resolveCanonicalNamedModule, Lowering.resolveCanonicalNamedModule]
        rcases hknown with hempty | hknown
        · simp [hempty]
        · obtain ⟨id, hid⟩ := Option.isSome_iff_exists.mp hknown
          simp [hid]
      simp [htarget]

/-- Module `id` has nothing to answer a name qualified by `name` with: nothing
public for a call, and for a constant or struct the same unless `name` stands
for the module itself. -/
def Module.OffersNothing (project : Project) (module : Module) (name : Name) (id : ModuleId) :
    Prop :=
  ∀ other : Module, project.modules[id]? = some other →
    (∀ decl ∈ other.program.functions, decl.isPublic = false) ∧
      (name ≠ "" → name ≠ module.name →
        (∀ decl ∈ other.program.consts, decl.isPublic = false) ∧
          ∀ decl ∈ other.program.structs, decl.isPublic = false)

theorem exportOf_eq_none_iff {α : Type} (accept : α → Bool) (key : α → Name)
    (declsOf : Program → List α) (id : ModuleId) :
    (∀ name, exportOf project
        (fun program name => (declsOf program).find? fun decl => accept decl && key decl == name)
        id name = none) ↔
      ∀ other : Module, project.modules[id]? = some other →
        ∀ decl ∈ declsOf other.program, accept decl = false := by
  constructor
  · intro hnone other hother decl hdecl
    have hsearch := hnone (key decl)
    rw [exportOf_eq_map hother, Option.map_eq_none_iff] at hsearch
    have hdeclNone := List.find?_eq_none.mp hsearch decl hdecl
    simpa using hdeclNone
  · intro hprivate name
    cases hother : project.modules[id]? with
    | none => simp [exportOf, hother]
    | some other =>
        rw [exportOf_eq_map hother, Option.map_eq_none_iff, List.find?_eq_none]
        intro decl hdecl
        simp [hprivate other hother decl hdecl]

theorem offersNothing_iff {name : Name} {id : ModuleId} :
    module.OffersNothing project name id ↔
      (∀ n, exportOf project Lowering.findPublicFunction id n = none) ∧
        (name ≠ "" → name ≠ module.name →
          (∀ n, exportOf project Lowering.findPublicConst id n = none) ∧
            ∀ n, exportOf project Lowering.findPublicStruct id n = none) := by
  have hfunctions := @exportOf_eq_none_iff project _ FunctionDecl.isPublic FunctionDecl.name
    Program.functions id
  have hconsts := @exportOf_eq_none_iff project _ ConstDecl.isPublic ConstDecl.name
    Program.consts id
  have hstructs := @exportOf_eq_none_iff project _ StructDecl.isPublic StructDecl.name
    Program.structs id
  rw [show Lowering.findPublicFunction = _ from rfl, show Lowering.findPublicConst = _ from rfl,
    show Lowering.findPublicStruct = _ from rfl]
  rw [Module.OffersNothing]
  constructor
  · intro hoffers
    exact ⟨hfunctions.mpr fun other hother => (hoffers other hother).1,
      fun hempty hown =>
        ⟨hconsts.mpr fun other hother => ((hoffers other hother).2 hempty hown).1,
          hstructs.mpr fun other hother => ((hoffers other hother).2 hempty hown).2⟩⟩
  · rintro ⟨hfunction, hvalue⟩ other hother
    exact ⟨hfunctions.mp hfunction other hother, fun hempty hown =>
      ⟨hconsts.mp (hvalue hempty hown).1 other hother,
        hstructs.mp (hvalue hempty hown).2 other hother⟩⟩

/-- The two passes find the same declaration for every constant, struct and
function that can be written in module `self`. -/
structure ResolversAgree (project : Project) (own : ModuleId) : Prop where
  localConst : ∀ name, Checker.resolveConstInModule project own name =
    Lowering.resolveConstInModule project own name
  localFunction : ∀ name, Checker.resolveLocalFunction project own name =
    Lowering.resolveLocalFunction project own name
  moduleFunction : ∀ qualifier name, Checker.resolveModuleFunction project own qualifier name =
    Lowering.resolveModuleFunction project own qualifier name
  sourceConst : ∀ qualifier name, Checker.resolveSourceNamedConst project own qualifier name =
    Lowering.resolveSourceNamedConst project own qualifier name
  sourceStruct : ∀ qualifier name, Checker.resolveSourceNamedStruct project own qualifier name =
    Lowering.resolveSourceNamedStruct project own qualifier name
  canonicalStruct : ∀ qualifier name,
    qualifier = "" ∨ (project.findModuleByName qualifier).isSome →
      Checker.resolveCanonicalNamedStruct project own qualifier name =
        Lowering.resolveCanonicalNamedStruct project own qualifier name

/-- No alias competes with another import's module name over anything: they
stand for one module, or the alias is enclosed, or neither module offers anything. -/
def Module.ImportsUnambiguous (project : Project) (module : Module) : Prop :=
  ∀ (i j : Nat) (first second : ImportDecl) (firstId secondId : ModuleId),
    module.program.imports[i]? = some first → module.program.imports[j]? = some second →
    module.imports[i]? = some (some firstId) → module.imports[j]? = some (some secondId) →
    first.aliasName = second.moduleName →
    firstId = secondId ∨ module.AliasEnclosed i first.aliasName ∨
      (module.OffersNothing project first.aliasName firstId ∧
        module.OffersNothing project first.aliasName secondId)

/-- An import that answers to the alias of `i`, which is the module name of `j`,
stands for what one of the two stands for. -/
theorem target_of_answers (hresolved : module.ImportsResolved project self)
    (haliases : (module.program.imports.map (·.aliasName)).Nodup) {name : Name} {i j k : Nat}
    {first second decl : ImportDecl} (hfirst : module.program.imports[i]? = some first)
    (hsecond : module.program.imports[j]? = some second)
    (hdecl : module.program.imports[k]? = some decl) (halias : first.aliasName = name)
    (hmoduleName : second.moduleName = name) (hanswers : decl.answersTo name = true) :
    module.imports[k]? = module.imports[i]? ∨ module.imports[k]? = module.imports[j]? := by
  rcases ImportDecl.answersTo_iff.mp hanswers with hkAlias | hkModule
  · left
    rw [alias_index_unique haliases hdecl hfirst (hkAlias.trans halias.symm)]
  · right
    exact hresolved.deterministic k j decl second hdecl hsecond (hkModule.trans hmoduleName.symm)

/-- Once the passes look into two different modules, they agree on a qualified
name exactly when neither module offers anything under it. -/
theorem offersNothing_of_agree (haccepted : Check.Accepted project)
    (hmodule : project.modules[self]? = some module) (hagree : ResolversAgree project self)
    {name : Name} {firstId lastId : ModuleId} (hne : firstId ≠ lastId) (hfirst : firstId ≠ self)
    (hlast : lastId ≠ self)
    (hlowering : Lowering.findImportedModule module name = some firstId)
    (hchecker : Checker.findImportedModule module name = some lastId) :
    module.OffersNothing project name firstId ∧ module.OffersNothing project name lastId := by
  have hfunction : ∀ n, exportOf project Lowering.findPublicFunction lastId n = none ∧
      exportOf project Lowering.findPublicFunction firstId n = none := by
    intro n
    have heq := hagree.moduleFunction name n
    rw [Checker.resolveModuleFunction_eq haccepted hmodule,
      Lowering.resolveModuleFunction_eq hmodule, hlowering, hchecker] at heq
    exact (exportOf_eq_iff (Ne.symm hne) n).mp heq
  have hvalue : name ≠ "" → name ≠ module.name → ∀ n,
      (exportOf project Lowering.findPublicConst lastId n = none ∧
        exportOf project Lowering.findPublicConst firstId n = none) ∧
      (exportOf project Lowering.findPublicStruct lastId n = none ∧
        exportOf project Lowering.findPublicStruct firstId n = none) := by
    intro hempty hown n
    have hconst := hagree.sourceConst name n
    have hstruct := hagree.sourceStruct name n
    rw [Checker.resolveSourceNamedConst_eq haccepted hmodule,
      Lowering.resolveSourceNamedConst_eq hmodule, Checker.resolveSourceNamedModule,
      Lowering.resolveSourceNamedModule, if_neg (by tauto), if_neg (by tauto), hlowering,
      hchecker] at hconst
    rw [Checker.resolveSourceNamedStruct_eq haccepted hmodule,
      Lowering.resolveSourceNamedStruct_eq hmodule, Checker.resolveSourceNamedModule,
      Lowering.resolveSourceNamedModule, if_neg (by tauto), if_neg (by tauto), hlowering,
      hchecker] at hstruct
    simp only [qualified, Option.bind_some, hfirst, hlast, if_false] at hconst hstruct
    exact ⟨(exportOf_eq_iff (Ne.symm hne) n).mp hconst,
      (exportOf_eq_iff (Ne.symm hne) n).mp hstruct⟩
  rw [offersNothing_iff, offersNothing_iff]
  exact ⟨⟨fun n => (hfunction n).2, fun hempty hown =>
      ⟨fun n => (hvalue hempty hown n).1.2, fun n => (hvalue hempty hown n).2.2⟩⟩,
    ⟨fun n => (hfunction n).1, fun hempty hown =>
      ⟨fun n => (hvalue hempty hown n).1.1, fun n => (hvalue hempty hown n).2.1⟩⟩⟩

/-- The passes agree on every name qualified by `name` when the imports agree on
it, or look into modules that offer nothing. -/
theorem agree_of_targets (haccepted : Check.Accepted project)
    (hmodule : project.modules[self]? = some module) {name : Name}
    (htargets : Checker.findImportedModule module name = Lowering.findImportedModule module name ∨
      ∃ firstId lastId, firstId ≠ self ∧ lastId ≠ self ∧
        Lowering.findImportedModule module name = some firstId ∧
        Checker.findImportedModule module name = some lastId ∧
        module.OffersNothing project name firstId ∧ module.OffersNothing project name lastId)
    (n : Name) :
    Checker.resolveModuleFunction project self name n =
        Lowering.resolveModuleFunction project self name n ∧
      Checker.resolveSourceNamedConst project self name n =
        Lowering.resolveSourceNamedConst project self name n ∧
      Checker.resolveSourceNamedStruct project self name n =
        Lowering.resolveSourceNamedStruct project self name n := by
  rw [Checker.resolveModuleFunction_eq haccepted hmodule,
    Lowering.resolveModuleFunction_eq hmodule, Checker.resolveSourceNamedConst_eq haccepted hmodule,
    Lowering.resolveSourceNamedConst_eq hmodule,
    Checker.resolveSourceNamedStruct_eq haccepted hmodule,
    Lowering.resolveSourceNamedStruct_eq hmodule, Checker.resolveSourceNamedModule,
    Lowering.resolveSourceNamedModule]
  rcases htargets with heq |
    ⟨firstId, lastId, hfirst, hlast, hlowering, hchecker, hfirstOffers, hlastOffers⟩
  · simp [heq]
  · rw [offersNothing_iff] at hfirstOffers hlastOffers
    refine ⟨by simp [hlowering, hchecker, hfirstOffers.1 n, hlastOffers.1 n], ?_⟩
    by_cases hown : name = "" ∨ name = module.name
    · simp [hown]
    · obtain ⟨hempty, hname⟩ := not_or.mp hown
      have hfirstValue := hfirstOffers.2 hempty hname
      have hlastValue := hlastOffers.2 hempty hname
      simp [hempty, hname, hlowering, hchecker, qualified, hfirst, hlast, hfirstValue.1 n,
        hfirstValue.2 n, hlastValue.1 n, hlastValue.2 n]

/-- The resolvers of the two passes agree in a module exactly when no alias of
it competes with the module name of another import. -/
theorem resolversAgree_iff (haccepted : Check.Accepted project)
    (hresolved : project.ImportsResolved) (hmodule : project.modules[self]? = some module) :
    ResolversAgree project self ↔ module.ImportsUnambiguous project := by
  have himports := hresolved self module hmodule
  have haliases : (module.program.imports.map (·.aliasName)).Nodup := by
    have hnodup := haccepted.nodup_aliases hmodule
    rwa [himports.loadedImports_eq] at hnodup
  constructor
  · intro hagree i j first second firstId secondId hfirst hsecond hi hj halias
    by_cases hsame : Checker.findImportedModule module first.aliasName =
        Lowering.findImportedModule module first.aliasName
    · rcases (findImportedModule_eq_iff himports haliases first.aliasName).mp hsame i j first
        second hfirst hsecond rfl halias.symm with htarget | henclosed
      · rw [hi, hj] at htarget
        exact .inl (by simpa using htarget)
      · exact .inr (.inl henclosed)
    · rcases findImportedModule_cases himports first.aliasName with ⟨hchecker, hlowering, -⟩ |
        ⟨f, l, fId, lId, ⟨⟨fDecl, hfDecl, hfAnswers⟩, -⟩, ⟨⟨lDecl, hlDecl, hlAnswers⟩, -⟩,
          hfId, hlId, hfSelf, hlSelf, hlowering, hchecker⟩
      · exact absurd (hchecker.trans hlowering.symm) hsame
      · have hne : fId ≠ lId := by
          rintro rfl
          exact hsame (hchecker.trans hlowering.symm)
        obtain ⟨hfOffers, hlOffers⟩ :=
          offersNothing_of_agree haccepted hmodule hagree hne hfSelf hlSelf hlowering hchecker
        have hf := target_of_answers himports haliases hfirst hsecond hfDecl rfl halias.symm
          hfAnswers
        have hl := target_of_answers himports haliases hfirst hsecond hlDecl rfl halias.symm
          hlAnswers
        simp only [hfId, hlId, hi, hj, Option.some.injEq] at hf hl
        grind
  · intro hunambiguous
    have htargets : ∀ name, Checker.findImportedModule module name =
          Lowering.findImportedModule module name ∨
        ∃ firstId lastId, firstId ≠ self ∧ lastId ≠ self ∧
          Lowering.findImportedModule module name = some firstId ∧
          Checker.findImportedModule module name = some lastId ∧
          module.OffersNothing project name firstId ∧
          module.OffersNothing project name lastId := by
      intro name
      by_cases hsame : Checker.findImportedModule module name =
          Lowering.findImportedModule module name
      · exact .inl hsame
      right
      rcases findImportedModule_cases himports name with ⟨hchecker, hlowering, -⟩ |
        ⟨f, l, fId, lId, ⟨⟨fDecl, hfDecl, hfAnswers⟩, -⟩, ⟨⟨lDecl, hlDecl, hlAnswers⟩, -⟩,
          hfId, hlId, hfSelf, hlSelf, hlowering, hchecker⟩
      · exact absurd (hchecker.trans hlowering.symm) hsame
      refine ⟨fId, lId, hfSelf, hlSelf, hlowering, hchecker, ?_⟩
      rw [findImportedModule_eq_iff himports haliases] at hsame
      push Not at hsame
      obtain ⟨i, j, first, second, hfirst, hsecond, rfl, halias, htarget, hnotEnclosed⟩ := hsame
      obtain ⟨firstId, hi, -⟩ := himports.target hfirst
      obtain ⟨secondId, hj, -⟩ := himports.target hsecond
      have hf := target_of_answers himports haliases hfirst hsecond hfDecl rfl halias hfAnswers
      have hl := target_of_answers himports haliases hfirst hsecond hlDecl rfl halias hlAnswers
      have hoffers := hunambiguous i j first second firstId secondId hfirst hsecond hi hj
        halias.symm
      simp only [hfId, hlId, hi, hj, Option.some.injEq, ne_eq] at hf hl htarget
      have hboth := (hoffers.resolve_left htarget).resolve_left hnotEnclosed
      grind
    exact
      { localConst := fun name => resolveConstInModule_eq haccepted self name
        localFunction := fun name => resolveLocalFunction_eq haccepted self name
        moduleFunction := fun qualifier name =>
          (agree_of_targets haccepted hmodule (htargets qualifier) name).1
        sourceConst := fun qualifier name =>
          (agree_of_targets haccepted hmodule (htargets qualifier) name).2.1
        sourceStruct := fun qualifier name =>
          (agree_of_targets haccepted hmodule (htargets qualifier) name).2.2
        canonicalStruct := fun _ name hknown =>
          resolveCanonicalNamedStruct_eq haccepted hknown name }

end Declarations

theorem Project.importsResolved_of_nodup {project : Project}
    (hmodules : ∀ entry ∈ project.modules.zipIdx,
      entry.1.imports.length = entry.1.program.imports.length ∧
      (∀ target ∈ entry.1.imports,
        ∃ id, id < project.modules.length ∧ target = some id ∧ id ≠ entry.2) ∧
      (entry.1.program.imports.map (·.moduleName)).Nodup) : project.ImportsResolved := by
  intro self module hmodule
  obtain ⟨hlength, htargets, hnodup⟩ :=
    hmodules (module, self) (List.mem_zipIdx_iff_getElem?.mpr hmodule)
  refine ⟨hlength, ?_, ?_⟩
  · intro target htarget
    obtain ⟨id, hbound, hid, hself⟩ := htargets target htarget
    exact ⟨id, hid, hbound, hself⟩
  · intro i j first second hfirst hsecond hname
    have hi : (module.program.imports.map (·.moduleName))[i]? = some first.moduleName := by
      simp [hfirst]
    have hj : (module.program.imports.map (·.moduleName))[j]? = some first.moduleName := by
      simp [hsecond, hname]
    rw [(List.getElem?_inj (List.getElem?_eq_some_iff.mp hi).1 hnodup).mp (hi.trans hj.symm)]

/-! `import a as first; import b as second;` in the entry module, where both
modules export a function `f`. -/

def exportingModule (name : Name) (value : BitVec 64) : Module :=
  { isBuiltinStdlib := false
    name
    program :=
      { imports := []
        consts := []
        structs := []
        functions := [⟨true, false, "f", .int, [], some [.returnStmt (some (.int value))]⟩] }
    imports := [] }

def importingProject (first second called : Name) : Project :=
  ⟨[{ isBuiltinStdlib := false
      name := "main"
      program :=
        { imports := [⟨"a", first⟩, ⟨"b", second⟩]
          consts := []
          structs := []
          functions := [⟨false, false, "main", .int, [],
            some [.returnStmt (some (.call (.field (.name called) "f") []))]⟩] }
      imports := [some 1, some 2] },
    exportingModule "a" 1, exportingModule "b" 2]⟩

theorem alias_of_other_module_splits_passes :
    Check.Accepted (importingProject "x" "a" "a") ∧
      (importingProject "x" "a" "a").ImportsResolved ∧
      (Checker.resolveModuleFunction (importingProject "x" "a" "a") 0 "a" "f").map (·.1) =
        some 2 ∧
      (Lowering.resolveModuleFunction (importingProject "x" "a" "a") 0 "a" "f").map (·.1) =
        some 1 :=
  ⟨by decide, Project.importsResolved_of_nodup (by decide), by decide,
    by decide⟩

theorem resolversAgree_of_distinct_aliases :
    ResolversAgree (importingProject "x" "y" "y") 0 ↔
      Module.ImportsUnambiguous (importingProject "x" "y" "y")
        (importingProject "x" "y" "y").modules[0] :=
  resolversAgree_iff (by decide)
    (Project.importsResolved_of_nodup (by decide)) rfl

end Cnegative
