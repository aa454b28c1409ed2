import Cnegative.Check.Project

namespace Cnegative

namespace Check

open Checker (Resolved)

/-! What an accepted project guarantees: every check that was run reported
nothing. -/

theorem nodup_of_duplicateErrors {code : DiagCode} {seen names : List Name}
    (herrors : duplicateErrors code seen names = []) :
    names.Nodup ∧ ∀ name ∈ names, name ∉ seen := by
  induction names generalizing seen with
  | nil => simp
  | cons name rest ih =>
      by_cases hseen : name ∈ seen
      · simp [duplicateErrors, hseen] at herrors
      · simp only [duplicateErrors, List.contains_eq_mem, hseen, decide_false,
          Bool.false_eq_true, if_false] at herrors
        obtain ⟨hnodup, hnot⟩ := ih herrors
        refine ⟨List.nodup_cons.mpr ⟨fun hmem => hnot name hmem (by simp), hnodup⟩, ?_⟩
        intro other hother
        rcases List.mem_cons.mp hother with rfl | hrest
        · exact hseen
        · exact fun hmem => hnot other hrest (List.mem_cons_of_mem _ hmem)

/-! What the constant check keeps.  Its walk only reports; a declaration is marked once
everything found for it is reported. -/

def Keeps {α : Type} (kept : ConstState → Prop) (run : ConstM α) : Prop :=
  ∀ state, kept state → kept (run state).2

def Stable (kept : ConstState → Prop) : Prop :=
  ∀ state codes, kept state → kept { state with errors := state.errors ++ codes }

/-- Everything `cn_check_const_decl` finds in one declaration. -/
def constCodes (project : Project) (resolved : Resolved ConstDecl) : List DiagCode :=
  (constDeclErrors ⟨project, resolved.1⟩ resolved.2).1 ++
    (constDeclErrors ⟨project, resolved.1⟩ resolved.2).2

def Marks (project : Project) (kept : ConstState → Prop) : Prop :=
  ∀ resolved, Declared project Program.consts resolved →
    ∀ state, kept state → (∀ code ∈ constCodes project resolved, code ∈ state.errors) →
      kept { state with checked := (resolved.1, resolved.2.name) :: state.checked }

section Keeps

variable {α β : Type} {kept : ConstState → Prop}

theorem Keeps.pure (value : α) : Keeps kept (Pure.pure value : ConstM α) :=
  fun _ hkept => hkept

theorem Keeps.bind {first : ConstM α} {next : α → ConstM β} (hfirst : Keeps kept first)
    (hnext : ∀ value, Keeps kept (next value)) : Keeps kept (first >>= next) :=
  fun state hkept => hnext (first state).1 (first state).2 (hfirst state hkept)

theorem keeps_report (hstable : Stable kept) (codes : List DiagCode) :
    Keeps kept (report codes) :=
  fun state hkept => hstable state codes hkept

theorem keeps_rejected (hstable : Stable kept) (codes : List DiagCode) (value : α) :
    Keeps kept (do report codes; return value : ConstM α) :=
  (keeps_report hstable codes).bind fun _ => Keeps.pure value

theorem Keeps.ite {condition : Bool} {first second : ConstM α} (hfirst : Keeps kept first)
    (hsecond : Keeps kept second) : Keeps kept (if condition then first else second) := by
  cases condition
  · exact hsecond
  · exact hfirst

theorem Keeps.andThen {first second : ConstM Bool} (hfirst : Keeps kept first)
    (hsecond : Keeps kept second) :
    Keeps kept (do if ← first then second else return false : ConstM Bool) :=
  hfirst.bind fun _ => hsecond.ite (Keeps.pure false)

theorem stable_mem (code : DiagCode) : Stable fun state => code ∈ state.errors :=
  fun _ _ hmem => List.mem_append_left _ hmem

theorem marks_mem (project : Project) (code : DiagCode) :
    Marks project fun state => code ∈ state.errors :=
  fun _ _ _ hmem _ => hmem

end Keeps

section ConstExpr

variable {project : Project} {self : ModuleId} {kept : ConstState → Prop}
  {checkDecl : Resolved ConstDecl → ConstM Bool}

mutual

theorem keeps_checkConstExpr (hstable : Stable kept)
    (hdecl : ∀ resolved, Declared project Program.consts resolved → Keeps kept (checkDecl resolved)) :
    (expression : Expr) → Keeps kept (checkConstExpr ⟨project, self⟩ checkDecl expression)
  | .int _ | .bool _ | .string _ | .null | .err => by
      rw [checkConstExpr]
      exact Keeps.pure true
  | .name name => by
      rw [checkConstExpr]
      split
      · exact keeps_rejected hstable _ _
      · rename_i resolved hresolved
        exact hdecl resolved (resolveConstInModule_spec hresolved).2.2
  | .unary _ operand => by
      rw [checkConstExpr]
      exact keeps_checkConstExpr hstable hdecl operand
  | .binary _ left right => by
      rw [checkConstExpr]
      exact (keeps_checkConstExpr hstable hdecl left).andThen
        (keeps_checkConstExpr hstable hdecl right)
  | .ifExpr condition thenExpr elseExpr => by
      rw [checkConstExpr]
      exact (keeps_checkConstExpr hstable hdecl condition).andThen
        ((keeps_checkConstExpr hstable hdecl thenExpr).andThen
          (keeps_checkConstExpr hstable hdecl elseExpr))
  | .arrayLiteral items _ => by
      rw [checkConstExpr]
      exact keeps_checkConstItems hstable hdecl items
  | .index base index => by
      rw [checkConstExpr]
      exact (keeps_checkConstExpr hstable hdecl base).andThen
        (keeps_checkConstExpr hstable hdecl index)
  | .sliceView base start stop => by
      rw [checkConstExpr]
      exact (keeps_checkConstExpr hstable hdecl base).andThen
        ((keeps_checkConstBound hstable hdecl start).andThen
          (keeps_checkConstBound hstable hdecl stop))
  | .field base fieldName => by
      rw [checkConstExpr]
      split
      · rename_i resolved hresolved
        unfold Context.sourceConst? at hresolved
        split at hresolved
        · exact hdecl resolved (resolveSourceNamedConst_accessible hresolved).1
        · cases hresolved
      · exact keeps_checkConstExpr hstable hdecl base
  | .structLiteral _ _ fields => by
      rw [checkConstExpr]
      exact keeps_checkConstFields hstable hdecl fields
  | .ok value => by
      rw [checkConstExpr]
      exact keeps_checkConstExpr hstable hdecl value
  | .call _ _ | .alloc _ | .zalloc _ | .addr _ | .deref _ => by
      rw [checkConstExpr]
      exact keeps_rejected hstable _ _

theorem keeps_checkConstBound (hstable : Stable kept)
    (hdecl : ∀ resolved, Declared project Program.consts resolved → Keeps kept (checkDecl resolved)) :
    (bound : Option Expr) → Keeps kept (checkConstBound ⟨project, self⟩ checkDecl bound)
  | none => by
      rw [checkConstBound]
      exact Keeps.pure true
  | some bound => by
      rw [checkConstBound]
      exact keeps_checkConstExpr hstable hdecl bound

theorem keeps_checkConstItems (hstable : Stable kept)
    (hdecl : ∀ resolved, Declared project Program.consts resolved → Keeps kept (checkDecl resolved)) :
    (items : List Expr) → Keeps kept (checkConstItems ⟨project, self⟩ checkDecl items)
  | [] => by
      rw [checkConstItems]
      exact Keeps.pure true
  | item :: rest => by
      rw [checkConstItems]
      exact (keeps_checkConstExpr hstable hdecl item).andThen
        (keeps_checkConstItems hstable hdecl rest)

theorem keeps_checkConstFields (hstable : Stable kept)
    (hdecl : ∀ resolved, Declared project Program.consts resolved → Keeps kept (checkDecl resolved)) :
    (fields : List (Name × Expr)) → Keeps kept (checkConstFields ⟨project, self⟩ checkDecl fields)
  | [] => by
      rw [checkConstFields]
      exact Keeps.pure true
  | (_, value) :: rest => by
      rw [checkConstFields]
      exact (keeps_checkConstExpr hstable hdecl value).andThen
        (keeps_checkConstFields hstable hdecl rest)

end

end ConstExpr

/-- The state after the declaration was walked, before it is marked. -/
def walked (project : Project) (fuel : Nat) (checking : List (ModuleId × Name))
    (resolved : Resolved ConstDecl) (state : ConstState) : ConstState :=
  let errors := constDeclErrors ⟨project, resolved.1⟩ resolved.2
  let walk := checkConstExpr ⟨project, resolved.1⟩
    (checkConstDecl project fuel ((resolved.1, resolved.2.name) :: checking))
    resolved.2.initializer { state with errors := state.errors ++ errors.1 }
  { walk.2 with errors := walk.2.errors ++ errors.2 }

theorem checkConstDecl_cases (project : Project) (fuel : Nat)
    (checking : List (ModuleId × Name)) (resolved : Resolved ConstDecl) (state : ConstState) :
    ((resolved.1, resolved.2.name) ∈ state.checked ∧
      (checkConstDecl project (fuel + 1) checking resolved state).2 = state) ∨
    ((resolved.1, resolved.2.name) ∈ checking ∧
      (checkConstDecl project (fuel + 1) checking resolved state).2 =
        { state with errors := state.errors ++ [.E3026] }) ∨
    (checkConstDecl project (fuel + 1) checking resolved state).2 =
      { walked project fuel checking resolved state with
        checked := (resolved.1, resolved.2.name) ::
          (walked project fuel checking resolved state).checked } := by
  by_cases hchecked : (resolved.1, resolved.2.name) ∈ state.checked
  · refine Or.inl ⟨hchecked, ?_⟩
    simp [checkConstDecl, hchecked, get, getThe, MonadStateOf.get, StateT.get, Bind.bind,
      StateT.bind, Pure.pure]
    rfl
  · by_cases hchecking : (resolved.1, resolved.2.name) ∈ checking
    · refine Or.inr (Or.inl ⟨hchecking, ?_⟩)
      simp [checkConstDecl, hchecked, hchecking, report, get, getThe, MonadStateOf.get, StateT.get,
        Bind.bind, StateT.bind, Pure.pure, modify, modifyGet, MonadStateOf.modifyGet,
        StateT.modifyGet]
      rfl
    · refine Or.inr (Or.inr ?_)
      simp [checkConstDecl, hchecked, hchecking, walked, report, get, getThe, MonadStateOf.get,
        StateT.get, Bind.bind, StateT.bind, Pure.pure, modify, modifyGet,
        MonadStateOf.modifyGet, StateT.modifyGet]
      rfl

theorem keeps_checkConstDecl (project : Project) (fuel : Nat) :
    ∀ kept : ConstState → Prop, Stable kept → Marks project kept →
      ∀ checking resolved, Declared project Program.consts resolved →
        Keeps kept (checkConstDecl project fuel checking resolved) := by
  induction fuel with
  | zero => exact fun kept hstable _ _ _ _ => keeps_rejected hstable _ _
  | succ fuel ih =>
      intro kept hstable hmarks checking resolved hdeclared state hkept
      have hwalk : ∀ kept, Stable kept → Marks project kept →
          Keeps kept (checkConstExpr ⟨project, resolved.1⟩
            (checkConstDecl project fuel ((resolved.1, resolved.2.name) :: checking))
            resolved.2.initializer) :=
        fun kept hstable hmarks => keeps_checkConstExpr hstable
          (fun inner hinner => ih kept hstable hmarks _ inner hinner) _
      obtain ⟨-, hrun⟩ | ⟨-, hrun⟩ | hrun :=
        checkConstDecl_cases project fuel checking resolved state
      · rw [hrun]
        exact hkept
      · rw [hrun]
        exact hstable state _ hkept
      · rw [hrun]
        refine hmarks resolved hdeclared _
          (hstable _ _ (hwalk kept hstable hmarks _ (hstable _ _ hkept))) fun code hcode => ?_
        rcases List.mem_append.mp hcode with hfirst | hlast
        · exact List.mem_append_left _ (hwalk _ (stable_mem code) (marks_mem project code) _
            (List.mem_append_right _ hfirst))
        · exact List.mem_append_right _ hlast

/-- The loop over the constants of all modules. -/
def checkDecls (project : Project) (decls : List (Resolved ConstDecl)) : ConstM Unit :=
  decls.forM fun resolved => do
    let _ ← checkConstDecl project (constFuel project) [] resolved

theorem keeps_checkDecls {project : Project} {kept : ConstState → Prop} (hstable : Stable kept)
    (hmarks : Marks project kept) {decls : List (Resolved ConstDecl)}
    (hdecls : ∀ resolved ∈ decls, Declared project Program.consts resolved) :
    Keeps kept (checkDecls project decls) := by
  induction decls with
  | nil => exact Keeps.pure ()
  | cons resolved rest ih =>
      have hfirst := keeps_checkConstDecl project (constFuel project) kept hstable hmarks []
        resolved (hdecls resolved List.mem_cons_self)
      exact (hfirst.bind fun _ => Keeps.pure ()).bind fun _ =>
        ih fun other hother => hdecls other (List.mem_cons_of_mem _ hother)

def constDecls (project : Project) : List (Resolved ConstDecl) :=
  project.modules.zipIdx.flatMap fun entry =>
    entry.1.program.consts.map fun decl => (entry.2, decl)

theorem mem_constDecls {project : Project} {resolved : Resolved ConstDecl} :
    resolved ∈ constDecls project ↔ Declared project Program.consts resolved := by
  simp only [constDecls, List.mem_flatMap, List.mem_map, Declared]
  constructor
  · rintro ⟨⟨module, id⟩, hmodule, decl, hdecl, rfl⟩
    exact ⟨module, List.mem_zipIdx_iff_getElem?.mp hmodule, hdecl⟩
  · rintro ⟨module, hmodule, hdecl⟩
    exact ⟨(module, resolved.1), List.mem_zipIdx_iff_getElem?.mpr hmodule, resolved.2, hdecl, rfl⟩

theorem checkConsts_eq_nil {project : Project} {errors : List DiagCode}
    (hnil : checkConsts project errors = []) : errors = [] := by
  refine List.eq_nil_iff_forall_not_mem.mpr fun code hcode => ?_
  have hlast : code ∈ checkConsts project errors :=
    keeps_checkDecls (stable_mem code) (marks_mem project code)
      (fun _ hmem => mem_constDecls.mp hmem) ⟨[], errors⟩ hcode
  rw [hnil] at hlast
  cases hlast

namespace Accepted

variable {project : Project} {self : ModuleId} {module : Module}

theorem mem_zipIdx (hmodule : project.modules[self]? = some module) :
    (module, self) ∈ project.modules.zipIdx :=
  List.mem_zipIdx_iff_getElem?.mpr hmodule

theorem moduleDecls (haccepted : Accepted project)
    (hmodule : project.modules[self]? = some module) :
    checkModuleDecls ⟨project, self⟩ module = [] := by
  rw [Accepted, checkProject, List.append_eq_nil_iff] at haccepted
  have hdecls := checkConsts_eq_nil haccepted.1
  rw [List.flatMap_eq_nil_iff] at hdecls
  exact hdecls (module, self) (mem_zipIdx hmodule)

theorem moduleHeader (haccepted : Accepted project)
    (hmodule : project.modules[self]? = some module) : checkModuleHeader module = [] := by
  have hdecls := haccepted.moduleDecls hmodule
  simp only [checkModuleDecls, List.append_eq_nil_iff] at hdecls
  exact hdecls.1.1

theorem checkFunction (haccepted : Accepted project)
    (hmodule : project.modules[self]? = some module) {function : FunctionDecl}
    (hfunction : function ∈ module.program.functions) :
    Check.checkFunction ⟨project, self⟩ function = [] := by
  rw [Accepted, checkProject, List.append_eq_nil_iff] at haccepted
  have hfunctions := haccepted.2
  rw [List.flatMap_eq_nil_iff] at hfunctions
  have hmoduleFunctions := hfunctions (module, self) (mem_zipIdx hmodule)
  rw [checkModuleFunctions, List.flatMap_eq_nil_iff] at hmoduleFunctions
  exact hmoduleFunctions function hfunction

theorem nodup_consts (haccepted : Accepted project)
    (hmodule : project.modules[self]? = some module) :
    (module.program.consts.map (·.name)).Nodup := by
  have hheader := haccepted.moduleHeader hmodule
  simp only [checkModuleHeader, List.append_eq_nil_iff] at hheader
  exact (nodup_of_duplicateErrors hheader.1.1.1.1.1.1).1

theorem nodup_structs (haccepted : Accepted project)
    (hmodule : project.modules[self]? = some module) :
    (module.program.structs.map (·.name)).Nodup := by
  have hheader := haccepted.moduleHeader hmodule
  simp only [checkModuleHeader, List.append_eq_nil_iff] at hheader
  exact (nodup_of_duplicateErrors hheader.1.1.1.1.1.2).1

theorem nodup_functions (haccepted : Accepted project)
    (hmodule : project.modules[self]? = some module) :
    (module.program.functions.map (·.name)).Nodup := by
  have hheader := haccepted.moduleHeader hmodule
  simp only [checkModuleHeader, List.append_eq_nil_iff] at hheader
  exact (nodup_of_duplicateErrors hheader.1.1.1.1.2).1

theorem nodup_aliases (haccepted : Accepted project)
    (hmodule : project.modules[self]? = some module) :
    ((loadedImports module).map (·.aliasName)).Nodup := by
  have hheader := haccepted.moduleHeader hmodule
  simp only [checkModuleHeader, List.append_eq_nil_iff] at hheader
  exact (nodup_of_duplicateErrors hheader.1.1.1.2).1

end Accepted

end Check

end Cnegative
