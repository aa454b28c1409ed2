import Cnegative.Resolution.Agreement

namespace Cnegative

namespace Check

open Checker (Resolved resolveSourceNamedStruct resolveCanonicalNamedModule
  resolveCanonicalNamedStruct resolveStructInModule resolveModuleFunction)

/-! Private structs of other modules stay unseen. -/

theorem classifyCallee_accessible {project : Project} {self : ModuleId} {callee : Expr}
    {resolved : Resolved FunctionDecl}
    (hcallee : classifyCallee ⟨project, self⟩ callee = .function resolved) :
    Declared project Program.functions resolved ∧
      Accessible self resolved.1 resolved.2.isPublic := by
  unfold classifyCallee at hcallee
  split at hcallee
  · split at hcallee
    · contradiction
    · split at hcallee
      · contradiction
      · split at hcallee
        · contradiction
        · split at hcallee
          · contradiction
          · rename_i found hfound
            cases hcallee
            exact resolveLocalFunction_accessible hfound
  · rename_i qualifier name
    split at hcallee
    · contradiction
    · cases hfound : resolveModuleFunction project self qualifier name with
      | none =>
          simp only [hfound] at hcallee
          split at hcallee <;> split at hcallee <;> contradiction
      | some found =>
          have hsame : found = resolved := by
            simp only [hfound] at hcallee
            split at hcallee <;> split at hcallee <;> first | contradiction | simpa using hcallee
          rw [← hsame]
          exact resolveModuleFunction_accessible hfound
  · contradiction

/-- A canonical module name of another module stands for that module alone. -/
theorem resolveCanonicalNamedStruct_moduleName {project : Project} {self id : ModuleId}
    {other : Module} (hnames : (project.modules.map (·.name)).Nodup)
    (hother : project.modules[id]? = some other) {name : Name} {resolved : Resolved StructDecl}
    (hresolved : resolveCanonicalNamedStruct project self (moduleName project id) name =
      some resolved) :
    resolved.1 = self ∨
      (resolved.1 = id ∧ resolveStructInModule project id name = some resolved) := by
  simp only [resolveCanonicalNamedStruct, Option.bind_eq_bind, Option.bind_eq_some_iff] at hresolved
  obtain ⟨module, -, target, htarget, hfound⟩ := hresolved
  have hid := (resolveStructInModule_spec hfound).1
  unfold resolveCanonicalNamedModule at htarget
  split at htarget
  · cases htarget
    exact Or.inl hid
  · have hname : moduleName project id = other.name := by rw [moduleName, hother]
    have hfind : project.findModuleByName other.name = some id := by
      obtain ⟨hlt, hget⟩ := List.getElem?_eq_some_iff.mp hother
      rw [Project.findModuleByName, List.findIdx?_eq_some_iff_getElem]
      refine ⟨hlt, by simp [hget], fun earlier hearlier hsame => ?_⟩
      have hlength : earlier < project.modules.length := by omega
      have hnameAt : (project.modules.map (·.name))[earlier]? =
          (project.modules.map (·.name))[id]? := by
        simpa [hlength, hlt, hget] using hsame
      have hbound : earlier < (project.modules.map (·.name)).length := by simpa using hlength
      have hindex := (List.getElem?_inj hbound hnames).mp hnameAt
      omega
    rw [hname, hfind, Option.some_or, Option.some.injEq] at htarget
    subst htarget
    exact Or.inr ⟨hid, hfound⟩

/-! The structs a type mentions, as the checker resolves them in module `self`: at any
depth below pointers, slices, arrays and results, and in the fields of structs. -/

inductive Mentions (project : Project) (self : ModuleId) : TypeRef → Resolved StructDecl → Prop where
  | named {qualifier name resolved} :
      resolveCanonicalNamedStruct project self qualifier name = some resolved →
      Mentions project self (.named qualifier name) resolved
  | field {qualifier name owner field resolved} :
      resolveCanonicalNamedStruct project self qualifier name = some owner →
      field ∈ owner.2.fields →
      Mentions project self (canonType project owner.1 field.type) resolved →
      Mentions project self (.named qualifier name) resolved
  | result {inner resolved} :
      Mentions project self inner resolved → Mentions project self (.result inner) resolved
  | ptr {inner resolved} :
      Mentions project self inner resolved → Mentions project self (.ptr inner) resolved
  | slice {inner resolved} :
      Mentions project self inner resolved → Mentions project self (.slice inner) resolved
  | array {inner size resolved} :
      Mentions project self inner resolved → Mentions project self (.array inner size) resolved

/-- A type of module `self` mentions no private struct of another module. -/
def Visible (project : Project) (self : ModuleId) (type : TypeRef) : Prop :=
  ∀ resolved, Mentions project self type resolved →
    Accessible self resolved.1 resolved.2.isPublic

def RootsVisible (project : Project) (self : ModuleId) : TypeRef → Prop
  | .result inner | .ptr inner | .slice inner | .array inner _ => RootsVisible project self inner
  | .named qualifier name =>
      ∀ resolved, resolveCanonicalNamedStruct project self qualifier name = some resolved →
        Accessible self resolved.1 resolved.2.isPublic
  | _ => True

section Declarations

variable {project : Project} {self : ModuleId}

/-- Distinct struct names make the public table agree with the table of all structs. -/
theorem isPublic_of_source (haccepted : Accepted project) {id target : ModuleId}
    {qualifier name : Name} {source canonical : Resolved StructDecl}
    (hsource : resolveSourceNamedStruct project id qualifier name = some source)
    (hcanonical : resolveStructInModule project target name = some canonical)
    (htarget : source.1 = target) : canonical.2 = source.2 := by
  obtain ⟨⟨module, hmodule, hmem⟩, hname, -⟩ := resolveSourceNamedStruct_accessible hsource
  obtain ⟨hid, hsame, other, hother, hfound⟩ := resolveStructInModule_spec hcanonical
  rw [hid, ← htarget, hmodule, Option.some.injEq] at hother
  subst hother
  have hnodup := haccepted.nodup_structs hmodule
  exact List.inj_on_of_nodup_map hnodup hfound hmem (hsame.trans hname.symm)

/-- What module `id` may write and export is visible from everywhere. -/
theorem rootsVisible_of_declared (haccepted : Accepted project)
    (hnames : (project.modules.map (·.name)).Nodup) {id : ModuleId} (type : TypeRef)
    (hvalid : Context.validate ⟨project, id⟩ type = [])
    (hexported : id = self ∨
      Context.isExportable ⟨project, id⟩ (canonType project id type) = true) :
    RootsVisible project self (canonType project id type) := by
  induction type with
  | named qualifier name =>
      cases hsource : resolveSourceNamedStruct project id qualifier name with
      | none => simp [Context.validate, hsource] at hvalid
      | some source =>
          have hcanon : canonType project id (.named qualifier name) =
              .named (moduleName project source.1) name := by
            simp only [canonType, hsource]
          rw [hcanon] at hexported ⊢
          intro resolved hresolved
          obtain ⟨⟨other, hother, -⟩, -, haccessible⟩ := resolveSourceNamedStruct_accessible hsource
          obtain hself | ⟨hid, hfound⟩ :=
            resolveCanonicalNamedStruct_moduleName hnames hother hresolved
          · exact Or.inl hself
          · have hdecl := isPublic_of_source haccepted hsource hfound rfl
            rcases haccessible with hown | hpublic
            · -- the type names a struct of the module that wrote it
              rcases hexported with hself | hexported
              · exact Or.inl (hid.trans (hown.trans hself))
              · refine Or.inr ?_
                rw [hown] at hother hfound hexported
                have hname : moduleName project id = other.name := by rw [moduleName, hother]
                have howner : resolveCanonicalNamedStruct project id other.name name =
                    some resolved := by
                  simp [resolveCanonicalNamedStruct, hother, resolveCanonicalNamedModule, hfound]
                rw [hname] at hexported
                simpa [Context.isExportable, howner] using hexported
            · rw [hdecl]
              exact Or.inr hpublic
  | result inner ih | ptr inner ih | slice inner ih | array inner size ih =>
      exact ih hvalid hexported
  | int | u8 | bool | str | void | null | unknown => trivial

/-- What the check of a declared type demands of it. -/
def Admitted (project : Project) (id : ModuleId) (isPublic : Bool) (type : TypeRef) : Prop :=
  Context.validate ⟨project, id⟩ type = [] ∧
    (isPublic = true → Context.isExportable ⟨project, id⟩ (canonType project id type) = true)

theorem admitted_of_checkPublicType {id : ModuleId} {isPublic : Bool} {type : TypeRef}
    (hchecked : checkPublicType ⟨project, id⟩ isPublic type = []) :
    Admitted project id isPublic type := by
  rw [checkPublicType, List.append_eq_nil_iff] at hchecked
  obtain ⟨hvalid, hexported⟩ := hchecked
  refine ⟨hvalid, fun hpublic => ?_⟩
  simpa [checkExported, hvalid, hpublic, Context.canon] using hexported

theorem structField_admitted (haccepted : Accepted project) {owner : Resolved StructDecl}
    (howner : Declared project Program.structs owner) {field : StructField}
    (hfield : field ∈ owner.2.fields) :
    Admitted project owner.1 owner.2.isPublic field.type := by
  obtain ⟨module, hmodule, hmem⟩ := howner
  have hdecls := haccepted.moduleDecls hmodule
  simp only [checkModuleDecls, List.append_eq_nil_iff, List.flatMap_eq_nil_iff] at hdecls
  have hstruct := hdecls.1.2 owner.2 hmem
  rw [checkStructDecl, List.append_eq_nil_iff, List.flatMap_eq_nil_iff] at hstruct
  exact admitted_of_checkPublicType (hstruct.2 field hfield)

theorem signature_admitted (haccepted : Accepted project) {resolved : Resolved FunctionDecl}
    (hdeclared : Declared project Program.functions resolved) :
    Admitted project resolved.1 resolved.2.isPublic resolved.2.returnType ∧
      ∀ param ∈ resolved.2.parameters,
        Admitted project resolved.1 resolved.2.isPublic param.type := by
  obtain ⟨module, hmodule, hmem⟩ := hdeclared
  have hdecls := haccepted.moduleDecls hmodule
  simp only [checkModuleDecls, List.append_eq_nil_iff, List.flatMap_eq_nil_iff] at hdecls
  have hsignature := hdecls.2 resolved.2 hmem
  rw [checkFunctionSignature, List.append_eq_nil_iff, List.flatMap_eq_nil_iff] at hsignature
  exact ⟨admitted_of_checkPublicType hsignature.1,
    fun param hparam => admitted_of_checkPublicType (hsignature.2 param hparam)⟩

/-- The roots decide: a public struct exports the types of its fields. -/
theorem visible_of_roots (haccepted : Accepted project)
    (hnames : (project.modules.map (·.name)).Nodup) {type : TypeRef}
    (hroots : RootsVisible project self type) : Visible project self type := by
  intro resolved hmentions
  induction hmentions with
  | named hresolved => exact hroots _ hresolved
  | field howner hfield _ ih =>
      have hspec := howner
      simp only [resolveCanonicalNamedStruct, Option.bind_eq_bind,
        Option.bind_eq_some_iff] at hspec
      obtain ⟨_, -, _, -, hfound⟩ := hspec
      have hadmitted := structField_admitted haccepted (resolveStructInModule_spec hfound).2.2 hfield
      exact ih (rootsVisible_of_declared haccepted hnames _ hadmitted.1
        ((hroots _ howner).imp_right hadmitted.2))
  | result _ ih | ptr _ ih | slice _ ih | array _ ih => exact ih hroots

theorem visible_of_admitted (haccepted : Accepted project)
    (hnames : (project.modules.map (·.name)).Nodup) {id : ModuleId} {isPublic : Bool}
    {type : TypeRef} (hadmitted : Admitted project id isPublic type)
    (haccessible : Accessible self id isPublic) :
    Visible project self (canonType project id type) :=
  visible_of_roots haccepted hnames (rootsVisible_of_declared haccepted hnames type hadmitted.1
    (haccessible.imp_right hadmitted.2))

end Declarations

end Check

end Cnegative
