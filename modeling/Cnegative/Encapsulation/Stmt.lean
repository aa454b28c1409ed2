import Cnegative.Encapsulation.Expr

namespace Cnegative

namespace Check

open Library (Ref Frame Chain)
open Checker (Resolved resolveConstInModule)

/-! The static types in statements. -/

def targetTypes (ctx : Context) (scope : Scope) (target : Expr) : List TypeRef :=
  (checkAssignmentTarget ctx scope target).1.type ::
    match target with
    | .field base fieldName =>
        match ctx.sourceConst? base fieldName with
        | some _ => []
        | none => exprTypes ctx scope none target
    | .index _ _ | .deref _ => exprTypes ctx scope none target
    | _ => []

def returnTypes (ctx : Context) (returnType : TypeRef) (scope : Scope) :
    Option Expr → List TypeRef
  | none => []
  | some value => exprTypes ctx scope (some returnType) value

def deferredTypes (ctx : Context) (scope : Scope) : Deferred → List TypeRef
  | .expr value => exprTypes ctx scope none value
  | .free value => exprTypes ctx scope none value

mutual

/-- The types found for every expression of a statement, in the scopes in which
`cn_check_statement` checks it. -/
def statementTypes (ctx : Context) (returnType : TypeRef) (scope : Scope) : Stmt → List TypeRef
  | .letStmt _ _ type initializer => exprTypes ctx scope (some (ctx.canon type)) initializer
  | .assign target value =>
      targetTypes ctx scope target ++
        exprTypes ctx scope (some (checkAssignmentTarget ctx scope target).1.type) value
  | .returnStmt value => returnTypes ctx returnType scope value
  | .expr value => exprTypes ctx scope none value
  | .defer statement => deferredTypes ctx scope statement
  | .tryStmt _ initializer => exprTypes ctx scope none initializer
  | .zone body => blockTypes ctx returnType (scope.push (scope.zoneDepth + 1)) body
  | .ifStmt condition thenBlock elseBlock =>
      let first := checkStatements ctx returnType (scope.guarded condition true) thenBlock
      exprTypes ctx scope (some .bool) condition ++
        blockTypes ctx returnType (scope.guarded condition true) thenBlock ++
        elseTypes ctx returnType first.1.pop condition elseBlock
  | .whileStmt condition body =>
      exprTypes ctx scope (some .bool) condition ++
        blockTypes ctx returnType (scope.guarded condition true) body
  | .loop body => blockTypes ctx returnType (scope.push scope.zoneDepth) body
  | .forStmt name type start stop body =>
      let header := checkForHeader ctx scope name type start stop
      exprTypes ctx scope (some .int) start ++ exprTypes ctx scope (some .int) stop ++
        blockTypes ctx returnType (header.1.push header.1.zoneDepth) body
  | .free value => exprTypes ctx scope none value

def elseTypes (ctx : Context) (returnType : TypeRef) (scope : Scope) (condition : Expr) :
    Option (List Stmt) → List TypeRef
  | none => []
  | some block => blockTypes ctx returnType (scope.guarded condition false) block

def blockTypes (ctx : Context) (returnType : TypeRef) (scope : Scope) : List Stmt → List TypeRef
  | [] => []
  | statement :: rest =>
      statementTypes ctx returnType scope statement ++
        blockTypes ctx returnType (checkStatement ctx returnType scope statement).1 rest

end

section Scopes

variable {project : Project} {self : ModuleId} {scope : Scope}

theorem VisibleScope.pop (hscope : VisibleScope project self scope) :
    VisibleScope project self scope.pop :=
  fun frame hframe => hscope frame (List.mem_of_mem_tail hframe)

theorem VisibleScope.define (hscope : VisibleScope project self scope) (name : Name)
    {type : TypeRef} (htype : Visible project self type) (isMutable : Bool)
    (valueZoneDepth : Nat) :
    VisibleScope project self (scope.define name type isMutable valueZoneDepth).1 := by
  unfold Scope.define
  split
  · exact hscope
  · rename_i frame outer
    split
    · exact hscope
    · intro other hother entry hentry
      rcases List.mem_cons.mp hother with rfl | houter
      · rcases List.mem_cons.mp hentry with rfl | hold
        · exact htype
        · exact hscope frame List.mem_cons_self entry hold
      · exact hscope other (List.mem_cons_of_mem _ houter) entry hentry

theorem VisibleScope.update {change : Binding → Binding}
    (hchange : ∀ binding, (change binding).type = binding.type) {ref : BindingRef}
    (hscope : VisibleScope project self scope) :
    VisibleScope project self (Chain.update scope ref change) := by
  induction scope with
  | nil => exact hscope
  | cons frame outer ih =>
      have hframe := hscope frame List.mem_cons_self
      have houter : VisibleScope project self outer :=
        fun other hother => hscope other (List.mem_cons_of_mem _ hother)
      rw [Chain.update]
      split
      · intro other hother entry hentry
        rcases List.mem_cons.mp hother with rfl | hrest
        · obtain ⟨old, hold, rfl⟩ := List.mem_map.mp hentry
          split
          · rw [hchange]
            exact hframe old hold
          · exact hframe old hold
        · exact houter other hrest entry hentry
      · intro other hother entry hentry
        rcases List.mem_cons.mp hother with rfl | hrest
        · exact hframe entry hentry
        · exact ih houter other hrest entry hentry

theorem VisibleScope.updateBinding {change : Binding → Binding}
    (hchange : ∀ binding, (change binding).type = binding.type)
    (hscope : VisibleScope project self scope) (name : Name) :
    VisibleScope project self (scope.updateBinding name change) := by
  unfold Scope.updateBinding
  split
  · exact hscope
  · exact hscope.update hchange

theorem VisibleScope.invalidate (hscope : VisibleScope project self scope)
    (binding : BindingRef) : VisibleScope project self (scope.invalidateResultProofs binding) := by
  intro frame hframe entry hentry
  obtain ⟨old, hold, rfl⟩ := List.mem_map.mp hframe
  obtain ⟨before, hbefore, rfl⟩ := List.mem_map.mp hentry
  have htype : (before.2.invalidate binding).type = before.2.type := by
    unfold Binding.invalidate
    split
    · rfl
    · split <;> rfl
  rw [htype]
  exact hscope old hold before hbefore

theorem VisibleScope.assigned (hscope : VisibleScope project self scope)
    (found : BindingRef × Binding) (value : Expr) (valueZoneDepth : Nat) :
    VisibleScope project self (scope.assigned found value valueZoneDepth) := by
  have hstored : VisibleScope project self
      (Chain.update scope found.1 fun binding => { binding with valueZoneDepth }) := by
    apply hscope.update
    intro binding
    rfl
  unfold Scope.assigned
  dsimp only
  split
  · split
    · exact (hstored.invalidate found.1).markResultOk found.1
    · exact hstored.invalidate found.1
  · exact hstored

theorem VisibleScope.afterIf (hscope : VisibleScope project self scope) (condition : Expr)
    (thenReturns elseReturns : Bool) :
    VisibleScope project self (scope.afterIf condition thenReturns elseReturns) := by
  have hthen : VisibleScope project self
      (if elseReturns then scope.markBranch scope condition true else scope) := by
    split
    · exact hscope.markBranch scope condition true
    · exact hscope
  unfold Scope.afterIf
  dsimp only
  split
  · exact hthen.markBranch _ condition false
  · exact hthen

end Scopes

section Statements

variable {project : Project} {self : ModuleId} {scope : Scope}

theorem visible_targetTypes (hencloses : Encloses project self)
    (hscope : VisibleScope project self scope) (target : Expr)
    (herrors : (checkAssignmentTarget ⟨project, self⟩ scope target).2 = []) :
    ∀ type ∈ targetTypes ⟨project, self⟩ scope target, Visible project self type := by
  unfold checkAssignmentTarget at herrors
  unfold targetTypes checkAssignmentTarget
  cases target with
  | name name =>
      cases hfound : scope.find? name with
      | some found =>
          simp only [hfound, List.forall_mem_singleton]
          exact hscope.find hfound
      | none =>
          simp only [hfound] at herrors
          split at herrors <;> contradiction
  | field base fieldName =>
      dsimp only at herrors ⊢
      cases hconst : Context.sourceConst? ⟨project, self⟩ base fieldName with
      | some resolved =>
          rw [hconst] at herrors
          contradiction
      | none =>
          rw [hconst] at herrors
          have htypes := visible_exprTypes hencloses _ hscope visibleHint_none herrors
          exact List.forall_mem_cons.mpr ⟨htypes _ (checkExpr_mem_exprTypes _ _ _ _), htypes⟩
  | index base index =>
      have htypes := visible_exprTypes hencloses _ hscope visibleHint_none herrors
      exact List.forall_mem_cons.mpr ⟨htypes _ (checkExpr_mem_exprTypes _ _ _ _), htypes⟩
  | deref inner =>
      have htypes := visible_exprTypes hencloses _ hscope visibleHint_none herrors
      exact List.forall_mem_cons.mpr ⟨htypes _ (checkExpr_mem_exprTypes _ _ _ _), htypes⟩
  | _ => contradiction

theorem visible_checkAssign (hencloses : Encloses project self)
    (hscope : VisibleScope project self scope) (target value : Expr)
    (herrors : (checkAssign ⟨project, self⟩ scope target value).2 = []) :
    (∀ type ∈ targetTypes ⟨project, self⟩ scope target ++ exprTypes ⟨project, self⟩ scope
        (some (checkAssignmentTarget ⟨project, self⟩ scope target).1.type) value,
      Visible project self type) ∧
    VisibleScope project self (checkAssign ⟨project, self⟩ scope target value).1 := by
  unfold checkAssign at herrors ⊢
  dsimp only at herrors ⊢
  split at herrors
  · exact absurd herrors (by simp)
  · rename_i hdepth
    rw [if_neg hdepth]
    have hpieces : (checkAssignmentTarget ⟨project, self⟩ scope target).2 = [] ∧
        (checkExpr ⟨project, self⟩ scope
          (some (checkAssignmentTarget ⟨project, self⟩ scope target).1.type) value).2 = [] := by
      split at herrors <;> simp only [List.append_eq_nil_iff] at herrors <;>
        exact ⟨herrors.1.1.1, herrors.1.2⟩
    have htarget := visible_targetTypes hencloses hscope target hpieces.1
    have hvalue := visible_exprTypes hencloses value hscope
      (visibleHint_some.mpr (htarget _ List.mem_cons_self)) hpieces.2
    refine ⟨List.forall_mem_append.mpr ⟨htarget, hvalue⟩, ?_⟩
    split
    · exact hscope
    · exact hscope.assigned _ value _

theorem visible_checkLet (hencloses : Encloses project self)
    (hscope : VisibleScope project self scope) (name : Name) (isMutable : Bool)
    (sourceType : TypeRef) (initializer : Expr)
    (herrors : (checkLet ⟨project, self⟩ scope name isMutable sourceType initializer).2 = []) :
    (∀ type ∈ exprTypes ⟨project, self⟩ scope
        (some (Context.canon ⟨project, self⟩ sourceType)) initializer,
      Visible project self type) ∧
    VisibleScope project self
      (checkLet ⟨project, self⟩ scope name isMutable sourceType initializer).1 := by
  unfold checkLet at herrors ⊢
  dsimp only at herrors ⊢
  have hpieces : Context.validate ⟨project, self⟩ sourceType = [] ∧
      (checkExpr ⟨project, self⟩ scope (some (Context.canon ⟨project, self⟩ sourceType))
        initializer).2 = [] := by
    split at herrors <;> simp only [List.append_eq_nil_iff] at herrors <;>
      exact herrors.1.1
  have htype := hencloses.written sourceType hpieces.1
  have hvalue := visible_exprTypes hencloses initializer hscope (visibleHint_some.mpr htype)
    hpieces.2
  refine ⟨hvalue, ?_⟩
  split
  · apply VisibleScope.updateBinding
    · intro binding
      rfl
    · exact hscope.define name htype isMutable _
  · exact hscope.define name htype isMutable _

theorem visible_checkTry (hencloses : Encloses project self)
    (hscope : VisibleScope project self scope) (returnType : TypeRef) (name : Name)
    (initializer : Expr)
    (herrors : (checkTry ⟨project, self⟩ returnType scope name initializer).2 = []) :
    (∀ type ∈ exprTypes ⟨project, self⟩ scope none initializer, Visible project self type) ∧
    VisibleScope project self (checkTry ⟨project, self⟩ returnType scope name initializer).1 := by
  unfold checkTry at herrors ⊢
  dsimp only at herrors ⊢
  split at herrors
  · rename_i inner htype
    simp only [List.append_eq_nil_iff] at herrors
    have hvalue := visible_exprTypes hencloses initializer hscope visibleHint_none herrors.1.1
    have hresult := hvalue _ (checkExpr_mem_exprTypes _ _ _ _)
    rw [htype] at hresult
    exact ⟨hvalue, hscope.define name (visible_result_iff.mp hresult) false _⟩
  · exact absurd herrors (by simp)

theorem visible_checkFree (hencloses : Encloses project self)
    (hscope : VisibleScope project self scope) (value : Expr)
    (herrors : checkFree ⟨project, self⟩ scope value = []) :
    ∀ type ∈ exprTypes ⟨project, self⟩ scope none value, Visible project self type := by
  rw [checkFree, List.append_eq_nil_iff] at herrors
  exact visible_exprTypes hencloses value hscope visibleHint_none herrors.1

theorem visible_checkReturn (hencloses : Encloses project self)
    (hscope : VisibleScope project self scope) {returnType : TypeRef}
    (hreturn : Visible project self returnType) (value : Option Expr)
    (herrors : checkReturn ⟨project, self⟩ returnType scope value = []) :
    ∀ type ∈ returnTypes ⟨project, self⟩ returnType scope value, Visible project self type := by
  cases value with
  | none => simp [returnTypes]
  | some value =>
      simp only [checkReturn, List.append_eq_nil_iff] at herrors
      exact visible_exprTypes hencloses value hscope (visibleHint_some.mpr hreturn) herrors.1.1

theorem visible_checkCondition (hencloses : Encloses project self)
    (hscope : VisibleScope project self scope) (condition : Expr)
    (herrors : checkCondition ⟨project, self⟩ scope condition = []) :
    ∀ type ∈ exprTypes ⟨project, self⟩ scope (some .bool) condition, Visible project self type := by
  simp only [checkCondition, List.append_eq_nil_iff] at herrors
  exact visible_exprTypes hencloses condition hscope
    (visibleHint_some.mpr (visible_of_isPlain rfl)) herrors.1

theorem visible_checkForHeader (hencloses : Encloses project self)
    (hscope : VisibleScope project self scope) (name : Name) (sourceType : TypeRef)
    (start stop : Expr)
    (herrors : (checkForHeader ⟨project, self⟩ scope name sourceType start stop).2 = []) :
    ((∀ type ∈ exprTypes ⟨project, self⟩ scope (some .int) start, Visible project self type) ∧
      ∀ type ∈ exprTypes ⟨project, self⟩ scope (some .int) stop, Visible project self type) ∧
    VisibleScope project self
      (checkForHeader ⟨project, self⟩ scope name sourceType start stop).1 := by
  simp only [checkForHeader, List.append_eq_nil_iff] at herrors
  obtain ⟨⟨⟨⟨⟨⟨hvalid, -⟩, hstart⟩, hstop⟩, -⟩, -⟩, -⟩ := herrors
  have hint : VisibleHint project self (some .int) := visibleHint_some.mpr (visible_of_isPlain rfl)
  exact ⟨⟨visible_exprTypes hencloses start hscope hint hstart,
      visible_exprTypes hencloses stop hscope hint hstop⟩,
    (hscope.pushed _).define name (hencloses.written sourceType hvalid) false 0⟩

mutual

theorem visible_statementTypes (hencloses : Encloses project self) {returnType : TypeRef}
    (hreturn : Visible project self returnType) : (statement : Stmt) →
    ∀ {scope : Scope}, VisibleScope project self scope →
      (checkStatement ⟨project, self⟩ returnType scope statement).2 = [] →
        (∀ type ∈ statementTypes ⟨project, self⟩ returnType scope statement,
          Visible project self type) ∧
        VisibleScope project self (checkStatement ⟨project, self⟩ returnType scope statement).1
  | .letStmt name isMutable type initializer, scope, hscope, herrors => by
      rw [checkStatement] at herrors ⊢
      rw [statementTypes]
      exact visible_checkLet hencloses hscope name isMutable type initializer herrors
  | .assign target value, scope, hscope, herrors => by
      rw [checkStatement] at herrors ⊢
      rw [statementTypes]
      exact visible_checkAssign hencloses hscope target value herrors
  | .returnStmt value, scope, hscope, herrors => by
      rw [checkStatement] at herrors ⊢
      rw [statementTypes]
      exact ⟨visible_checkReturn hencloses hscope hreturn value herrors, hscope⟩
  | .expr value, scope, hscope, herrors => by
      rw [checkStatement] at herrors ⊢
      rw [statementTypes]
      exact ⟨visible_exprTypes hencloses value hscope visibleHint_none herrors, hscope⟩
  | .defer (.expr value), scope, hscope, herrors => by
      rw [checkStatement, checkDeferred] at herrors
      rw [statementTypes, deferredTypes, checkStatement]
      exact ⟨visible_exprTypes hencloses value hscope visibleHint_none herrors, hscope⟩
  | .defer (.free value), scope, hscope, herrors => by
      rw [checkStatement, checkDeferred] at herrors
      rw [statementTypes, deferredTypes, checkStatement]
      exact ⟨visible_checkFree hencloses hscope value herrors, hscope⟩
  | .tryStmt name initializer, scope, hscope, herrors => by
      rw [checkStatement] at herrors ⊢
      rw [statementTypes]
      exact visible_checkTry hencloses hscope returnType name initializer herrors
  | .free value, scope, hscope, herrors => by
      rw [checkStatement] at herrors ⊢
      rw [statementTypes]
      exact ⟨visible_checkFree hencloses hscope value herrors, hscope⟩
  | .zone body, scope, hscope, herrors => by
      rw [checkStatement] at herrors ⊢
      rw [statementTypes]
      obtain ⟨hbody, hafter⟩ := visible_blockTypes hencloses hreturn body (hscope.pushed _) herrors
      exact ⟨hbody, hafter.pop⟩
  | .loop body, scope, hscope, herrors => by
      rw [checkStatement] at herrors ⊢
      rw [statementTypes]
      obtain ⟨hbody, hafter⟩ := visible_blockTypes hencloses hreturn body (hscope.pushed _) herrors
      exact ⟨hbody, hafter.pop⟩
  | .whileStmt condition body, scope, hscope, herrors => by
      rw [checkStatement] at herrors ⊢
      rw [statementTypes, List.forall_mem_append]
      obtain ⟨htest, herrors⟩ := List.append_eq_nil_iff.mp herrors
      obtain ⟨hbody, hafter⟩ :=
        visible_blockTypes hencloses hreturn body (hscope.guarded condition true) herrors
      exact ⟨⟨visible_checkCondition hencloses hscope condition htest, hbody⟩, hafter.pop⟩
  | .ifStmt condition thenBlock elseBlock, scope, hscope, herrors => by
      rw [checkStatement] at herrors ⊢
      rw [statementTypes, List.forall_mem_append, List.forall_mem_append]
      simp only [List.append_eq_nil_iff] at herrors
      obtain ⟨⟨htest, hthenErrors⟩, helseErrors⟩ := herrors
      obtain ⟨hthen, hafter⟩ :=
        visible_blockTypes hencloses hreturn thenBlock (hscope.guarded condition true) hthenErrors
      obtain ⟨helse, hlast⟩ :=
        visible_elseTypes hencloses hreturn elseBlock hafter.pop condition helseErrors
      exact ⟨⟨⟨visible_checkCondition hencloses hscope condition htest, hthen⟩, helse⟩,
        hlast.afterIf condition _ _⟩
  | .forStmt name type start stop body, scope, hscope, herrors => by
      rw [checkStatement] at herrors ⊢
      rw [statementTypes, List.forall_mem_append, List.forall_mem_append]
      obtain ⟨hheaderErrors, hbodyErrors⟩ := List.append_eq_nil_iff.mp herrors
      obtain ⟨hbounds, hheader⟩ :=
        visible_checkForHeader hencloses hscope name type start stop hheaderErrors
      obtain ⟨hbody, hafter⟩ :=
        visible_blockTypes hencloses hreturn body (hheader.pushed _) hbodyErrors
      exact ⟨⟨hbounds, hbody⟩, hafter.pop.pop⟩

theorem visible_elseTypes (hencloses : Encloses project self) {returnType : TypeRef}
    (hreturn : Visible project self returnType) : (block : Option (List Stmt)) →
    ∀ {scope : Scope}, VisibleScope project self scope → ∀ condition,
      (checkElse ⟨project, self⟩ returnType scope condition block).2 = [] →
        (∀ type ∈ elseTypes ⟨project, self⟩ returnType scope condition block,
          Visible project self type) ∧
        VisibleScope project self (checkElse ⟨project, self⟩ returnType scope condition block).1
  | none, scope, hscope, condition, _ => by
      rw [elseTypes, checkElse]
      exact ⟨by simp, hscope⟩
  | some block, scope, hscope, condition, herrors => by
      rw [checkElse] at herrors ⊢
      rw [elseTypes]
      obtain ⟨hblock, hafter⟩ :=
        visible_blockTypes hencloses hreturn block (hscope.guarded condition false) herrors
      exact ⟨hblock, hafter.pop⟩

theorem visible_blockTypes (hencloses : Encloses project self) {returnType : TypeRef}
    (hreturn : Visible project self returnType) : (block : List Stmt) →
    ∀ {scope : Scope}, VisibleScope project self scope →
      (checkStatements ⟨project, self⟩ returnType scope block).2 = [] →
        (∀ type ∈ blockTypes ⟨project, self⟩ returnType scope block, Visible project self type) ∧
        VisibleScope project self (checkStatements ⟨project, self⟩ returnType scope block).1
  | [], scope, hscope, _ => by
      rw [blockTypes, checkStatements]
      exact ⟨by simp, hscope⟩
  | statement :: rest, scope, hscope, herrors => by
      rw [checkStatements] at herrors ⊢
      rw [blockTypes, List.forall_mem_append]
      obtain ⟨hfirstErrors, hrestErrors⟩ := List.append_eq_nil_iff.mp herrors
      obtain ⟨hfirst, hmiddle⟩ :=
        visible_statementTypes hencloses hreturn statement hscope hfirstErrors
      obtain ⟨hrest, hafter⟩ := visible_blockTypes hencloses hreturn rest hmiddle hrestErrors
      exact ⟨⟨hfirst, hrest⟩, hafter⟩

end

end Statements

end Check

end Cnegative
