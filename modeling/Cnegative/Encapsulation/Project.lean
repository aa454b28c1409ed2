import Cnegative.Encapsulation.Stmt

namespace Cnegative

namespace Check

open Checker (Resolved resolveSourceNamedConst resolveSourceNamedStruct resolveConstInModule)

/-! Constants: each one is checked once, whatever starts its check. -/

/-- Marked constants have all they were found to do wrong among the diagnostics. -/
def Recorded (project : Project) (state : ConstState) : Prop :=
  ∀ resolved, Declared project Program.consts resolved →
    (resolved.1, resolved.2.name) ∈ state.checked →
      ∀ code ∈ constCodes project resolved, code ∈ state.errors

section Consts

variable {project : Project}

theorem const_unique (haccepted : Accepted project) {first second : Resolved ConstDecl}
    (hfirst : Declared project Program.consts first)
    (hsecond : Declared project Program.consts second)
    (hkey : (first.1, first.2.name) = (second.1, second.2.name)) : first = second := by
  obtain ⟨firstId, firstDecl⟩ := first
  obtain ⟨secondId, secondDecl⟩ := second
  obtain ⟨rfl, hname⟩ := Prod.mk.inj hkey
  obtain ⟨module, hmodule, hfirstMem⟩ := hfirst
  obtain ⟨other, hother, hsecondMem⟩ := hsecond
  rw [hmodule, Option.some.injEq] at hother
  subst hother
  have hdecl : firstDecl = secondDecl :=
    List.inj_on_of_nodup_map (haccepted.nodup_consts hmodule) hfirstMem hsecondMem hname
  rw [hdecl]

theorem stable_recorded : Stable (Recorded project) :=
  fun _ _ hrecorded resolved hdeclared hchecked code hcode =>
    List.mem_append_left _ (hrecorded resolved hdeclared hchecked code hcode)

theorem marks_recorded (haccepted : Accepted project) : Marks project (Recorded project) := by
  intro resolved hdeclared state hrecorded hcodes other hother hchecked
  rcases List.mem_cons.mp hchecked with hkey | hold
  · rw [const_unique haccepted hother hdeclared hkey]
    exact hcodes
  · exact hrecorded other hother hold

theorem mem_checkConstDecl (haccepted : Accepted project) {resolved : Resolved ConstDecl}
    (hdeclared : Declared project Program.consts resolved) {state : ConstState}
    (hrecorded : Recorded project state) {code : DiagCode}
    (hcode : code ∈ constCodes project resolved) :
    code ∈ (checkConstDecl project (constFuel project) [] resolved state).2.errors := by
  have hafter := keeps_checkConstDecl project (constFuel project) _ stable_recorded
    (marks_recorded haccepted) [] resolved hdeclared state hrecorded resolved hdeclared
  obtain ⟨hchecked, hrun⟩ | ⟨hnone, -⟩ | hrun :=
    checkConstDecl_cases project _ [] resolved state
  · refine hafter ?_ code hcode
    rw [constFuel, hrun]
    exact hchecked
  · cases hnone
  · refine hafter ?_ code hcode
    rw [constFuel, hrun]
    exact List.mem_cons_self

theorem mem_checkDecls (haccepted : Accepted project) {decls : List (Resolved ConstDecl)}
    (hdecls : ∀ resolved ∈ decls, Declared project Program.consts resolved) {state : ConstState}
    (hrecorded : Recorded project state) {resolved : Resolved ConstDecl} (hmem : resolved ∈ decls)
    {code : DiagCode} (hcode : code ∈ constCodes project resolved) :
    code ∈ (checkDecls project decls state).2.errors := by
  induction decls generalizing state with
  | nil => cases hmem
  | cons first rest ih =>
      have hfirst := hdecls first List.mem_cons_self
      have hrest : ∀ other ∈ rest, Declared project Program.consts other :=
        fun other hother => hdecls other (List.mem_cons_of_mem _ hother)
      rcases List.mem_cons.mp hmem with rfl | hlater
      · exact keeps_checkDecls (stable_mem code) (marks_mem project code) hrest _
          (mem_checkConstDecl haccepted hfirst hrecorded hcode)
      · exact ih hrest (keeps_checkConstDecl project (constFuel project) _ stable_recorded
          (marks_recorded haccepted) [] first hfirst state hrecorded) hlater

theorem Accepted.constCodes_eq_nil (haccepted : Accepted project) {resolved : Resolved ConstDecl}
    (hdeclared : Declared project Program.consts resolved) : constCodes project resolved = [] := by
  have hchecked := haccepted
  rw [Accepted, checkProject, List.append_eq_nil_iff] at hchecked
  obtain ⟨errors, hnil⟩ : ∃ errors, checkConsts project errors = [] := ⟨_, hchecked.1⟩
  have hstart : Recorded project ⟨[], errors⟩ := by
    intro other _ hmarked
    cases hmarked
  refine List.eq_nil_iff_forall_not_mem.mpr fun code hcode => ?_
  have hlast : code ∈ checkConsts project errors :=
    mem_checkDecls haccepted (fun _ hmem => mem_constDecls.mp hmem) hstart
      (mem_constDecls.mpr hdeclared) hcode
  rw [hnil] at hlast
  cases hlast

end Consts

/-! The whole project. -/

theorem Accepted.encloses {project : Project} (haccepted : Accepted project)
    (hnames : (project.modules.map (·.name)).Nodup) (self : ModuleId) : Encloses project self where
  written type hvalid :=
    visible_of_roots haccepted hnames
      (rootsVisible_of_declared haccepted hnames type hvalid (Or.inl rfl))
  const resolved hdeclared haccessible := by
    have hcodes := haccepted.constCodes_eq_nil hdeclared
    rw [constCodes, constDeclErrors, List.append_eq_nil_iff] at hcodes
    exact visible_of_admitted haccepted hnames (admitted_of_checkPublicType hcodes.1) haccessible
  function resolved hdeclared haccessible := by
    obtain ⟨hreturn, hparams⟩ := signature_admitted haccepted hdeclared
    refine ⟨visible_of_admitted haccepted hnames hreturn haccessible, fun type htype => ?_⟩
    obtain ⟨param, hparam, rfl⟩ := List.mem_map.mp htype
    exact visible_of_admitted haccepted hnames (hparams param hparam) haccessible
  constructed qualifier name resolved hresolved := by
    obtain ⟨hdeclared, hname, haccessible⟩ := resolveSourceNamedStruct_accessible hresolved
    constructor
    · have hvalid : Context.validate ⟨project, self⟩ (.named qualifier name) = [] := by
        simp only [Context.validate, hresolved]
      have hroots := rootsVisible_of_declared haccepted hnames _ hvalid (Or.inl rfl)
      have hvisible := visible_of_roots haccepted hnames hroots
      simp only [canonType, hresolved] at hvisible
      rw [hname]
      exact hvisible
    · intro fieldName type hfield
      obtain ⟨field, hfound, rfl⟩ := Option.map_eq_some_iff.mp hfield
      exact visible_of_admitted haccepted hnames
        (structField_admitted haccepted hdeclared (List.mem_of_find?_eq_some hfound)) haccessible

def functionTypes (ctx : Context) (function : FunctionDecl) : List TypeRef :=
  match function.body with
  | none => []
  | some body => blockTypes ctx (ctx.canon function.returnType) (rootScope ctx function).1 body

def moduleTypes (ctx : Context) (module : Module) : List TypeRef :=
  module.program.consts.flatMap (fun decl =>
      exprTypes ctx [] (some (ctx.canon decl.type)) decl.initializer) ++
    module.program.functions.flatMap (functionTypes ctx)

section Modules

variable {project : Project} {self : ModuleId} {module : Module}

theorem visible_defineParams (hencloses : Encloses project self) (params : List Param) :
    ∀ {scope : Scope}, VisibleScope project self scope →
      (∀ param ∈ params, Context.validate ⟨project, self⟩ param.type = []) →
        VisibleScope project self (defineParams ⟨project, self⟩ scope params).1 := by
  induction params with
  | nil => exact fun hscope _ => hscope
  | cons param rest ih =>
      intro scope hscope hvalid
      rw [defineParams]
      exact ih (hscope.define param.name
          (hencloses.written param.type (hvalid param List.mem_cons_self)) false 0)
        fun other hother => hvalid other (List.mem_cons_of_mem _ hother)

theorem visible_functionTypes (haccepted : Accepted project)
    (hnames : (project.modules.map (·.name)).Nodup)
    (hmodule : project.modules[self]? = some module) {function : FunctionDecl}
    (hfunction : function ∈ module.program.functions) :
    ∀ type ∈ functionTypes ⟨project, self⟩ function, Visible project self type := by
  have hencloses := haccepted.encloses hnames self
  obtain ⟨hreturn, hparams⟩ :=
    @signature_admitted project haccepted (self, function) ⟨module, hmodule, hfunction⟩
  have hchecked := haccepted.checkFunction hmodule hfunction
  unfold functionTypes
  cases hbody : function.body with
  | none => simp
  | some body =>
      simp only [Check.checkFunction, hbody, List.append_eq_nil_iff] at hchecked
      have hroot : VisibleScope project self (rootScope ⟨project, self⟩ function).1 := by
        refine visible_defineParams hencloses function.parameters ?_
          fun param hparam => (hparams param hparam).1
        intro frame hframe entry hentry
        rw [List.mem_singleton.mp hframe] at hentry
        cases hentry
      exact (visible_blockTypes hencloses (hencloses.written _ hreturn.1) body hroot
        hchecked.1.2).1

theorem visible_moduleTypes (haccepted : Accepted project)
    (hnames : (project.modules.map (·.name)).Nodup)
    (hmodule : project.modules[self]? = some module) :
    ∀ type ∈ moduleTypes ⟨project, self⟩ module, Visible project self type := by
  have hencloses := haccepted.encloses hnames self
  refine List.forall_mem_append.mpr ⟨fun type htype => ?_, fun type htype => ?_⟩
  · obtain ⟨decl, hdecl, htype⟩ := List.mem_flatMap.mp htype
    have hcodes := @Accepted.constCodes_eq_nil project haccepted (self, decl)
      ⟨module, hmodule, hdecl⟩
    rw [constCodes, constDeclErrors, List.append_eq_nil_iff, List.append_eq_nil_iff] at hcodes
    have hvalid := (admitted_of_checkPublicType hcodes.1).1
    exact visible_exprTypes hencloses decl.initializer (fun _ hframe => by cases hframe)
      (visibleHint_some.mpr (hencloses.written decl.type hvalid)) hcodes.2.1 type htype
  · obtain ⟨function, hfunction, htype⟩ := List.mem_flatMap.mp htype
    exact visible_functionTypes haccepted hnames hmodule hfunction type htype

/-- Modules are encapsulated: what an accepted module uses of another one is public there,
and no type it works with mentions a private struct of another one.  The last part is about
array sizes and repeat counts, which are checked without a scope. -/
theorem modules_encapsulated (haccepted : Accepted project)
    (hnames : (project.modules.map (·.name)).Nodup)
    (hmodule : project.modules[self]? = some module) :
    (∀ callee resolved, classifyCallee ⟨project, self⟩ callee = .function resolved →
      Accessible self resolved.1 resolved.2.isPublic) ∧
    (∀ name resolved, resolveConstInModule project self name = some resolved →
      Accessible self resolved.1 resolved.2.isPublic) ∧
    (∀ qualifier name resolved, resolveSourceNamedConst project self qualifier name =
      some resolved → Accessible self resolved.1 resolved.2.isPublic) ∧
    (∀ qualifier name resolved, resolveSourceNamedStruct project self qualifier name =
      some resolved → Accessible self resolved.1 resolved.2.isPublic) ∧
    (∀ type ∈ moduleTypes ⟨project, self⟩ module, ∀ resolved, Mentions project self type resolved →
      Accessible self resolved.1 resolved.2.isPublic) ∧
    (∀ size, (checkExpr ⟨project, self⟩ [] (some .int) size).2 = [] →
      ∀ type ∈ exprTypes ⟨project, self⟩ [] (some .int) size, ∀ resolved,
        Mentions project self type resolved →
          Accessible self resolved.1 resolved.2.isPublic) := by
  refine ⟨fun callee resolved hcallee => (classifyCallee_accessible hcallee).2,
    fun name resolved hresolved => Or.inl (resolveConstInModule_spec hresolved).1,
    fun qualifier name resolved hresolved => (resolveSourceNamedConst_accessible hresolved).2,
    fun qualifier name resolved hresolved => (resolveSourceNamedStruct_accessible hresolved).2.2,
    visible_moduleTypes haccepted hnames hmodule, fun size herrors => ?_⟩
  have hempty : VisibleScope project self [] := fun _ hframe => by cases hframe
  exact visible_exprTypes (haccepted.encloses hnames self) size hempty
    (visibleHint_some.mpr (visible_of_isPlain rfl)) herrors

end Modules

/-- `shapes` exports `Point` and a function that makes one, and keeps `Grid` to itself. -/
def shapesModule : Module :=
  ⟨false, "shapes", ⟨[], [],
    [⟨true, "Point", [⟨"x", .int⟩]⟩, ⟨false, "Grid", [⟨"origin", .named "" "Point"⟩]⟩],
    [⟨true, false, "origin", .named "" "Point", [],
      some [.returnStmt (some (.structLiteral "" "Point" [("x", .int 0)]))]⟩]⟩, []⟩

/-- `fn:int main() { let p:shapes.Point = shapes.origin(); return p.x; }`. -/
def shapesUser : Module :=
  ⟨false, "main", ⟨[⟨"shapes", "shapes"⟩], [], [],
    [mainFunction [.letStmt "p" false (.named "shapes" "Point")
        (.call (.field (.name "shapes") "origin") []),
      .returnStmt (some (.field (.name "p") "x"))]]⟩, [some 1]⟩

theorem shapesUser_encapsulated :
    moduleTypes ⟨⟨[shapesUser, shapesModule]⟩, 0⟩ shapesUser =
      [.named "shapes" "Point", .int, .named "shapes" "Point"] ∧
    ∀ type ∈ moduleTypes ⟨⟨[shapesUser, shapesModule]⟩, 0⟩ shapesUser, ∀ resolved,
      Mentions ⟨[shapesUser, shapesModule]⟩ 0 type resolved →
        Accessible 0 resolved.1 resolved.2.isPublic := by
  refine ⟨by decide, ?_⟩
  exact (@modules_encapsulated ⟨[shapesUser, shapesModule]⟩ 0 shapesUser (by decide)
    (by decide) rfl).2.2.2.2.1

end Check

end Cnegative
