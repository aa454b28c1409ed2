import Cnegative.Encapsulation.Visible

namespace Cnegative

/-- Whether a type can mention no struct. -/
def TypeRef.isPlain : TypeRef → Bool
  | .result _ | .ptr _ | .slice _ | .array _ _ | .named _ _ => false
  | _ => true

namespace Check

open Library (Ref Frame Chain)
open Checker (Resolved resolveSourceNamedStruct resolveCanonicalNamedStruct resolveConstInModule)

/-! The static types of an expression: the one found for it, and the ones found for the
expressions under it in every check of them. -/

mutual

def exprTypes (ctx : Context) (scope : Scope) (expected : Option TypeRef) : Expr → List TypeRef
  | .unary op operand =>
      (checkExpr ctx scope expected (.unary op operand)).1 :: exprTypes ctx scope none operand
  | .binary op left right =>
      let first := checkExpr ctx scope none left
      let second := checkExpr ctx scope (peerHint first.1 right) right
      (checkExpr ctx scope expected (.binary op left right)).1 ::
        (exprTypes ctx scope none left ++ exprTypes ctx scope (peerHint first.1 right) right ++
          match peerHint second.1 left with
          | none => []
          | some hint => exprTypes ctx scope (some hint) left)
  | .ifExpr condition thenExpr elseExpr =>
      let first := checkExpr ctx (scope.guarded condition true) expected thenExpr
      let elseHint :=
        match expected with
        | some type => some type
        | none => peerHint first.1 elseExpr
      let second := checkExpr ctx (scope.guarded condition false) elseHint elseExpr
      (checkExpr ctx scope expected (.ifExpr condition thenExpr elseExpr)).1 ::
        (exprTypes ctx scope (some .bool) condition ++
          exprTypes ctx (scope.guarded condition true) expected thenExpr ++
          exprTypes ctx (scope.guarded condition false) elseHint elseExpr ++
          match expected, peerHint second.1 thenExpr with
          | none, some hint => exprTypes ctx (scope.guarded condition true) (some hint) thenExpr
          | _, _ => [])
  | .call callee arguments =>
      (checkExpr ctx scope expected (.call callee arguments)).1 ::
        match classifyCallee ctx callee with
        | .builtin name => argumentTypes ctx scope (builtinSignature name).2.1 arguments
        | .function resolved => callTypes ctx scope (paramTypes ctx.project resolved) arguments
        | .rejected _ => []
        | .notCallable => argumentTypes ctx scope none arguments
  | .arrayLiteral items repeatCount =>
      (checkExpr ctx scope expected (.arrayLiteral items repeatCount)).1 ::
        match expected with
        | some (.array inner _) => argumentTypes ctx scope (some inner) items
        | _ => argumentTypes ctx scope none items
  | .index base index =>
      (checkExpr ctx scope expected (.index base index)).1 ::
        (exprTypes ctx scope none base ++ exprTypes ctx scope (some .int) index)
  | .sliceView base start stop =>
      (checkExpr ctx scope expected (.sliceView base start stop)).1 ::
        (exprTypes ctx scope none base ++ boundTypes ctx scope start ++ boundTypes ctx scope stop)
  | .field base fieldName =>
      (checkExpr ctx scope expected (.field base fieldName)).1 ::
        match ctx.sourceConst? base fieldName with
        | some _ => []
        | none => exprTypes ctx scope none base
  | .structLiteral qualifier typeName fields =>
      (checkExpr ctx scope expected (.structLiteral qualifier typeName fields)).1 ::
        match resolveSourceNamedStruct ctx.project ctx.self qualifier typeName with
        | none => []
        | some resolved => fieldTypes ctx scope resolved [] fields
  | .ok value =>
      (checkExpr ctx scope expected (.ok value)).1 ::
        match expected with
        | some (.result inner) => exprTypes ctx scope (some inner) value
        | _ => exprTypes ctx scope none value
  | .addr target =>
      (checkExpr ctx scope expected (.addr target)).1 :: exprTypes ctx scope none target
  | .deref target =>
      (checkExpr ctx scope expected (.deref target)).1 :: exprTypes ctx scope none target
  | .int value => [(checkExpr ctx scope expected (.int value)).1]
  | .bool value => [(checkExpr ctx scope expected (.bool value)).1]
  | .string value => [(checkExpr ctx scope expected (.string value)).1]
  | .null => [(checkExpr ctx scope expected .null).1]
  | .name name => [(checkExpr ctx scope expected (.name name)).1]
  | .err => [(checkExpr ctx scope expected .err).1]
  | .alloc type => [(checkExpr ctx scope expected (.alloc type)).1]
  | .zalloc type => [(checkExpr ctx scope expected (.zalloc type)).1]

def boundTypes (ctx : Context) (scope : Scope) : Option Expr → List TypeRef
  | none => []
  | some bound => exprTypes ctx scope (some .int) bound

/-- Items of an array literal and arguments of a builtin. -/
def argumentTypes (ctx : Context) (scope : Scope) (hint : Option TypeRef) :
    List Expr → List TypeRef
  | [] => []
  | argument :: rest => exprTypes ctx scope hint argument ++ argumentTypes ctx scope hint rest

def callTypes (ctx : Context) (scope : Scope) : List TypeRef → List Expr → List TypeRef
  | type :: types, argument :: rest =>
      exprTypes ctx scope (some type) argument ++ callTypes ctx scope types rest
  | _, _ => []

def fieldTypes (ctx : Context) (scope : Scope) (resolved : Resolved StructDecl)
    (seen : List Nat) : List (Name × Expr) → List TypeRef
  | [] => []
  | (fieldName, value) :: rest =>
      match resolved.2.fields.findIdx? (fun field => field.name == fieldName),
          findStructField ctx.project resolved fieldName with
      | some index, some type =>
          if seen.contains index then fieldTypes ctx scope resolved seen rest
          else
            exprTypes ctx scope (some type) value ++
              fieldTypes ctx scope resolved (index :: seen) rest
      | _, _ => fieldTypes ctx scope resolved seen rest

end

theorem checkExpr_mem_exprTypes (ctx : Context) (scope : Scope) (expected : Option TypeRef)
    (expression : Expr) :
    (checkExpr ctx scope expected expression).1 ∈ exprTypes ctx scope expected expression := by
  cases expression <;> exact List.mem_cons_self

/-! What the types written and declared elsewhere give to module `self`. -/

structure Encloses (project : Project) (own : ModuleId) : Prop where
  written : ∀ type, Context.validate ⟨project, own⟩ type = [] →
    Visible project own (canonType project own type)
  const : ∀ resolved, Declared project Program.consts resolved →
    Accessible own resolved.1 resolved.2.isPublic → Visible project own (constType project resolved)
  function : ∀ resolved, Declared project Program.functions resolved →
    Accessible own resolved.1 resolved.2.isPublic →
      Visible project own (returnTypeOf project resolved) ∧
        ∀ type ∈ paramTypes project resolved, Visible project own type
  constructed : ∀ qualifier name resolved,
    resolveSourceNamedStruct project own qualifier name = some resolved →
      Visible project own (.named (moduleName project resolved.1) resolved.2.name) ∧
        ∀ fieldName type, findStructField project resolved fieldName = some type →
          Visible project own type

def VisibleHint (project : Project) (self : ModuleId) (expected : Option TypeRef) : Prop :=
  ∀ type, expected = some type → Visible project self type

section Types

variable {project : Project} {self : ModuleId}

theorem visible_of_isPlain {type : TypeRef} (hplain : type.isPlain = true) :
    Visible project self type := by
  intro resolved hmentions
  cases hmentions <;> simp [TypeRef.isPlain] at hplain

theorem visible_result_iff {inner : TypeRef} :
    Visible project self (.result inner) ↔ Visible project self inner := by
  refine ⟨fun hvisible resolved hinner => hvisible resolved (.result hinner), ?_⟩
  intro hvisible resolved hmentions
  cases hmentions with
  | result hinner => exact hvisible resolved hinner

theorem visible_ptr_iff {inner : TypeRef} :
    Visible project self (.ptr inner) ↔ Visible project self inner := by
  refine ⟨fun hvisible resolved hinner => hvisible resolved (.ptr hinner), ?_⟩
  intro hvisible resolved hmentions
  cases hmentions with
  | ptr hinner => exact hvisible resolved hinner

theorem visible_slice_iff {inner : TypeRef} :
    Visible project self (.slice inner) ↔ Visible project self inner := by
  refine ⟨fun hvisible resolved hinner => hvisible resolved (.slice hinner), ?_⟩
  intro hvisible resolved hmentions
  cases hmentions with
  | slice hinner => exact hvisible resolved hinner

theorem visible_array_iff {inner : TypeRef} {size : Nat} :
    Visible project self (.array inner size) ↔ Visible project self inner := by
  refine ⟨fun hvisible resolved hinner => hvisible resolved (.array hinner), ?_⟩
  intro hvisible resolved hmentions
  cases hmentions with
  | array hinner => exact hvisible resolved hinner

theorem visibleHint_none : VisibleHint project self none :=
  fun _ hnone => by cases hnone

theorem visibleHint_some {type : TypeRef} :
    VisibleHint project self (some type) ↔ Visible project self type :=
  ⟨fun hhint => hhint type rfl, fun hvisible _ hsome => Option.some.inj hsome ▸ hvisible⟩

theorem visibleHint_peerHint {peer : TypeRef} (hpeer : Visible project self peer)
    (expression : Expr) : VisibleHint project self (peerHint peer expression) := by
  unfold peerHint
  split
  · exact visibleHint_some.mpr (visible_of_isPlain rfl)
  · exact visibleHint_some.mpr hpeer
  · exact visibleHint_none

theorem visible_unaryResult (op : UnaryOp) (operand : TypeRef) :
    Visible project self (unaryResult op operand).1 := by
  cases op <;> exact visible_of_isPlain rfl

theorem visible_binaryResult (op : BinaryOp) (left right : TypeRef) :
    Visible project self (binaryResult op left right).1 := by
  cases op <;> exact visible_of_isPlain rfl

theorem visible_ifResult {expected : Option TypeRef} {thenType : TypeRef}
    (hexpected : VisibleHint project self expected) (hthen : Visible project self thenType)
    (elseType : TypeRef) : Visible project self (ifResult expected thenType elseType).1 := by
  unfold ifResult
  split
  · exact visible_of_isPlain rfl
  · cases expected with
    | none =>
        dsimp only
        split
        · exact hthen
        · exact visible_of_isPlain rfl
    | some type =>
        dsimp only
        split
        · exact visibleHint_some.mp hexpected
        · split
          · exact hthen
          · exact visible_of_isPlain rfl

/-- Reading a field stays among the structs the base mentions. -/
theorem visible_fieldResult {base : TypeRef} (hbase : Visible project self base)
    (fieldName : Name) (provenOk : Bool) :
    Visible project self (fieldResult ⟨project, self⟩ base fieldName provenOk).1 := by
  unfold fieldResult
  split
  · split
    · exact visible_ptr_iff.mp hbase
    · exact visible_of_isPlain rfl
  · split
    · exact visible_of_isPlain rfl
    · split
      · exact visible_result_iff.mp hbase
      · exact visible_of_isPlain rfl
  · split <;> exact visible_of_isPlain rfl
  · rename_i qualifier name
    cases howner : resolveCanonicalNamedStruct project self qualifier name with
    | none => exact visible_of_isPlain rfl
    | some owner =>
        cases hfield : findStructField project owner fieldName with
        | none =>
            dsimp only
            rw [hfield]
            exact visible_of_isPlain rfl
        | some type =>
            dsimp only
            rw [hfield]
            obtain ⟨field, hfound, rfl⟩ := Option.map_eq_some_iff.mp hfield
            intro resolved hmentions
            exact hbase resolved (.field howner (List.mem_of_find?_eq_some hfound) hmentions)
  · exact visible_of_isPlain rfl

end Types

/-! A scope holds visible types. -/

def VisibleScope (project : Project) (self : ModuleId) (scope : Scope) : Prop :=
  ∀ frame ∈ scope, ∀ entry ∈ frame.bindings, Visible project self entry.2.type

section Exprs

variable {project : Project} {self : ModuleId}

theorem VisibleScope.find {scope : Scope} (hscope : VisibleScope project self scope) {name : Name}
    {found : BindingRef × Binding} (hfound : scope.find? name = some found) :
    Visible project self found.2.type := by
  induction scope with
  | nil => cases hfound
  | cons frame outer ih =>
      rw [Chain.find?_cons] at hfound
      split at hfound
      · rename_i binding hbinding
        cases hfound
        obtain ⟨entry, hentry, rfl⟩ := Option.map_eq_some_iff.mp hbinding
        exact hscope frame List.mem_cons_self entry (List.mem_of_find?_eq_some hentry)
      · exact ih (fun other hother => hscope other (List.mem_cons_of_mem _ hother)) hfound

theorem VisibleScope.pushed {scope : Scope} (hscope : VisibleScope project self scope)
    (zoneDepth : Nat) : VisibleScope project self (scope.push zoneDepth) := by
  intro frame hframe entry hentry
  rcases List.mem_cons.mp hframe with rfl | houter
  · cases hentry
  · exact hscope frame houter entry hentry

theorem VisibleScope.markResultOk {scope : Scope} (hscope : VisibleScope project self scope)
    (binding : BindingRef) : VisibleScope project self (scope.markResultOk binding) := by
  unfold Scope.markResultOk
  split
  · exact hscope
  · rename_i frame outer
    split
    · exact hscope
    · intro other hother entry hentry
      rcases List.mem_cons.mp hother with rfl | houter
      · exact hscope frame List.mem_cons_self entry hentry
      · exact hscope other (List.mem_cons_of_mem _ houter) entry hentry

theorem VisibleScope.markBranch {scope : Scope} (hscope : VisibleScope project self scope)
    (analysis : Scope) (condition : Expr) (branchTruth : Bool) :
    VisibleScope project self (scope.markBranch analysis condition branchTruth) := by
  unfold Scope.markBranch
  split
  · exact hscope
  · rename_i proof _
    induction proof.provenOk branchTruth generalizing scope with
    | nil => exact hscope
    | cons binding rest ih => exact ih (hscope.markResultOk binding)

theorem VisibleScope.guarded {scope : Scope} (hscope : VisibleScope project self scope)
    (condition : Expr) (branchTruth : Bool) :
    VisibleScope project self (scope.guarded condition branchTruth) :=
  (hscope.pushed scope.zoneDepth).markBranch scope condition branchTruth

theorem visible_checkName (hencloses : Encloses project self) {scope : Scope}
    (hscope : VisibleScope project self scope) (name : Name) :
    Visible project self (checkName ⟨project, self⟩ scope name).1 := by
  unfold checkName
  split
  · rename_i found hfound
    exact hscope.find hfound
  · split
    · rename_i resolved hresolved
      obtain ⟨hid, -, hdeclared⟩ := resolveConstInModule_spec hresolved
      exact hencloses.const resolved hdeclared (Or.inl hid)
    · split <;> exact visible_of_isPlain rfl

theorem visible_sourceConst (hencloses : Encloses project self) {base : Expr} {fieldName : Name}
    {resolved : Resolved ConstDecl}
    (hconst : Context.sourceConst? ⟨project, self⟩ base fieldName = some resolved) :
    Visible project self (constType project resolved) := by
  unfold Context.sourceConst? at hconst
  split at hconst
  · obtain ⟨hdeclared, haccessible⟩ := resolveSourceNamedConst_accessible hconst
    exact hencloses.const resolved hdeclared haccessible
  · cases hconst

/-! Without a hint for it, an array literal and an `ok` find their type from below. -/

theorem checkExpr_plainArray {ctx : Context} {scope : Scope} {expected : Option TypeRef}
    (hplain : ¬ ∃ inner size, expected = some (.array inner size)) {items : List Expr}
    {repeatCount : Option Nat} :
    checkExpr ctx scope expected (.arrayLiteral items repeatCount) =
      (.array ((checkItems ctx scope none none items).1.getD .unknown)
        (repeatCount.getD items.length), (checkItems ctx scope none none items).2) := by
  unfold checkExpr
  split
  · exact absurd ⟨_, _, rfl⟩ hplain
  · rfl

theorem exprTypes_plainArray {ctx : Context} {scope : Scope} {expected : Option TypeRef}
    (hplain : ¬ ∃ inner size, expected = some (.array inner size)) {items : List Expr}
    {repeatCount : Option Nat} :
    exprTypes ctx scope expected (.arrayLiteral items repeatCount) =
      (checkExpr ctx scope expected (.arrayLiteral items repeatCount)).1 ::
        argumentTypes ctx scope none items := by
  conv_lhs => unfold exprTypes
  split
  · exact absurd ⟨_, _, rfl⟩ hplain
  · rfl

theorem checkExpr_plainOk {ctx : Context} {scope : Scope} {expected : Option TypeRef}
    (hplain : ¬ ∃ inner, expected = some (.result inner)) {value : Expr} :
    checkExpr ctx scope expected (.ok value) =
      (.result (checkExpr ctx scope none value).1, (checkExpr ctx scope none value).2) := by
  conv_lhs => unfold checkExpr
  split
  · exact absurd ⟨_, rfl⟩ hplain
  · rfl

theorem exprTypes_plainOk {ctx : Context} {scope : Scope} {expected : Option TypeRef}
    (hplain : ¬ ∃ inner, expected = some (.result inner)) {value : Expr} :
    exprTypes ctx scope expected (.ok value) =
      (checkExpr ctx scope expected (.ok value)).1 :: exprTypes ctx scope none value := by
  conv_lhs => unfold exprTypes
  split
  · exact absurd ⟨_, rfl⟩ hplain
  · rfl

theorem checkExpr_field (scope : Scope) (expected : Option TypeRef) {base : Expr}
    {fieldName : Name} (hconst : Context.sourceConst? ⟨project, self⟩ base fieldName = none) :
    ∃ namesModule : Bool,
      checkExpr ⟨project, self⟩ scope expected (.field base fieldName) =
        if namesModule then (.unknown, [.E3014])
        else
          let checked := checkExpr ⟨project, self⟩ scope none base
          let result := fieldResult ⟨project, self⟩ checked.1 fieldName (namedResultIsOk scope base)
          (result.1, checked.2 ++ result.2) := by
  refine ⟨?_, ?_⟩
  rotate_left
  · conv_lhs => unfold checkExpr
    rw [hconst]

mutual

theorem visible_exprTypes (hencloses : Encloses project self) : (expression : Expr) →
    ∀ {scope : Scope} {expected : Option TypeRef}, VisibleScope project self scope →
      VisibleHint project self expected →
      (checkExpr ⟨project, self⟩ scope expected expression).2 = [] →
        ∀ type ∈ exprTypes ⟨project, self⟩ scope expected expression, Visible project self type
  | .int value, scope, expected, _, _, _ => by
      rw [exprTypes, List.forall_mem_singleton, checkExpr]
      split <;> exact visible_of_isPlain rfl
  | .bool _, scope, expected, _, _, _ | .string _, scope, expected, _, _, _ => by
      rw [exprTypes, List.forall_mem_singleton, checkExpr]
      exact visible_of_isPlain rfl
  | .null, scope, expected, _, hexpected, _ => by
      rw [exprTypes, List.forall_mem_singleton]
      unfold checkExpr
      split
      · exact visible_ptr_iff.mpr (visible_ptr_iff.mp (visibleHint_some.mp hexpected))
      · exact visible_of_isPlain rfl
  | .name name, scope, expected, hscope, _, _ => by
      rw [exprTypes, List.forall_mem_singleton, checkExpr]
      exact visible_checkName hencloses hscope name
  | .unary op operand, scope, expected, hscope, _, herrors => by
      rw [checkExpr, List.append_eq_nil_iff] at herrors
      rw [exprTypes, List.forall_mem_cons, checkExpr]
      exact ⟨visible_unaryResult op _,
        visible_exprTypes hencloses operand hscope visibleHint_none herrors.1⟩
  | .binary op left right, scope, expected, hscope, _, herrors => by
      rw [checkExpr] at herrors
      simp only [List.append_eq_nil_iff] at herrors
      obtain ⟨⟨⟨hleft, hright⟩, hagain⟩, -⟩ := herrors
      have hfirst := visible_exprTypes hencloses left hscope visibleHint_none hleft
      have hhint := visibleHint_peerHint (hfirst _ (checkExpr_mem_exprTypes _ _ _ _)) right
      have hsecond := visible_exprTypes hencloses right hscope hhint hright
      have hpeer := visibleHint_peerHint (hsecond _ (checkExpr_mem_exprTypes _ _ _ _)) left
      rw [exprTypes, List.forall_mem_cons]
      refine ⟨?_, List.forall_mem_append.mpr ⟨List.forall_mem_append.mpr ⟨hfirst, hsecond⟩, ?_⟩⟩
      · rw [checkExpr]
        exact visible_binaryResult op _ _
      · cases hthird : peerHint (checkExpr ⟨project, self⟩ scope
            (peerHint (checkExpr ⟨project, self⟩ scope none left).1 right) right).1 left with
        | none => simp
        | some hint =>
            rw [hthird] at hpeer hagain
            exact visible_exprTypes hencloses left hscope hpeer hagain
  | .ifExpr condition thenExpr elseExpr, scope, some type, hscope, hexpected, herrors => by
      unfold checkExpr at herrors
      simp only [List.append_eq_nil_iff] at herrors
      obtain ⟨⟨⟨⟨⟨hcondition, -⟩, hthen⟩, helse⟩, -⟩, -⟩ := herrors
      have htest := visible_exprTypes hencloses condition hscope
        (visibleHint_some.mpr (visible_of_isPlain rfl)) hcondition
      have hfirst := visible_exprTypes hencloses thenExpr (hscope.guarded condition true)
        hexpected hthen
      have hsecond := visible_exprTypes hencloses elseExpr (hscope.guarded condition false)
        hexpected helse
      unfold exprTypes
      rw [List.forall_mem_cons]
      refine ⟨?_, List.forall_mem_append.mpr ⟨List.forall_mem_append.mpr
        ⟨List.forall_mem_append.mpr ⟨htest, hfirst⟩, hsecond⟩, by simp⟩⟩
      unfold checkExpr
      exact visible_ifResult hexpected (hfirst _ (checkExpr_mem_exprTypes _ _ _ _)) _
  | .ifExpr condition thenExpr elseExpr, scope, none, hscope, hexpected, herrors => by
      unfold checkExpr at herrors
      simp only [List.append_eq_nil_iff] at herrors
      obtain ⟨⟨⟨⟨⟨hcondition, -⟩, hthen⟩, helse⟩, hagain⟩, -⟩ := herrors
      have htest := visible_exprTypes hencloses condition hscope
        (visibleHint_some.mpr (visible_of_isPlain rfl)) hcondition
      have hfirst := visible_exprTypes hencloses thenExpr (hscope.guarded condition true)
        hexpected hthen
      have hfirstType := hfirst _ (checkExpr_mem_exprTypes _ _ _ _)
      have hhint := visibleHint_peerHint hfirstType elseExpr
      have hsecond := visible_exprTypes hencloses elseExpr (hscope.guarded condition false)
        hhint helse
      have hpeer := visibleHint_peerHint (hsecond _ (checkExpr_mem_exprTypes _ _ _ _)) thenExpr
      unfold exprTypes
      rw [List.forall_mem_cons, List.forall_mem_append, List.forall_mem_append,
        List.forall_mem_append]
      cases hthird : peerHint (checkExpr ⟨project, self⟩ (scope.guarded condition false)
          (peerHint (checkExpr ⟨project, self⟩ (scope.guarded condition true) none thenExpr).1
            elseExpr) elseExpr).1 thenExpr with
      | none =>
          refine ⟨?_, ⟨⟨htest, hfirst⟩, hsecond⟩, by simp⟩
          unfold checkExpr
          simp only [hthird]
          exact visible_ifResult hexpected hfirstType _
      | some hint =>
          rw [hthird] at hpeer hagain
          have hlast := visible_exprTypes hencloses thenExpr (hscope.guarded condition true) hpeer
            hagain
          refine ⟨?_, ⟨⟨htest, hfirst⟩, hsecond⟩, hlast⟩
          unfold checkExpr
          simp only [hthird]
          exact visible_ifResult hexpected (hlast _ (checkExpr_mem_exprTypes _ _ _ _)) _
  | .call callee arguments, scope, expected, hscope, _, herrors => by
      unfold checkExpr at herrors
      unfold exprTypes checkExpr
      rw [List.forall_mem_cons]
      cases hcallee : classifyCallee ⟨project, self⟩ callee with
      | builtin name =>
          rw [hcallee] at herrors
          dsimp only at herrors ⊢
          split at herrors
          · refine ⟨?_, visible_argumentTypes hencloses arguments hscope ?_ herrors⟩
            · unfold builtinSignature
              repeat' split
              all_goals exact visible_of_isPlain rfl
            · unfold builtinSignature
              repeat' split
              all_goals first
                | exact visibleHint_none
                | exact visibleHint_some.mpr (visible_of_isPlain rfl)
          · contradiction
      | function resolved =>
          rw [hcallee] at herrors
          dsimp only at herrors ⊢
          rw [List.append_eq_nil_iff] at herrors
          obtain ⟨hdeclared, haccessible⟩ := classifyCallee_accessible hcallee
          obtain ⟨hreturn, hparams⟩ := hencloses.function resolved hdeclared haccessible
          exact ⟨hreturn, visible_callTypes hencloses arguments hscope hparams herrors.2⟩
      | rejected code =>
          rw [hcallee] at herrors
          contradiction
      | notCallable =>
          rw [hcallee] at herrors
          contradiction
  | .arrayLiteral items repeatCount, scope, expected, hscope, hexpected, herrors => by
      by_cases harray : ∃ inner size, expected = some (.array inner size)
      · obtain ⟨inner, size, rfl⟩ := harray
        have hvisible := visibleHint_some.mp hexpected
        have hinner := visibleHint_some.mpr (visible_array_iff.mp hvisible)
        unfold checkExpr at herrors
        unfold exprTypes checkExpr
        rw [List.forall_mem_cons]
        exact ⟨hvisible, (visible_itemTypes hencloses items hscope hinner hinner
          (List.append_eq_nil_iff.mp herrors).2).1⟩
      · rw [checkExpr_plainArray harray] at herrors
        rw [exprTypes_plainArray harray, List.forall_mem_cons, checkExpr_plainArray harray]
        obtain ⟨htypes, helement⟩ := visible_itemTypes hencloses items hscope visibleHint_none
          visibleHint_none herrors
        refine ⟨visible_array_iff.mpr ?_, htypes⟩
        cases hitem : (checkItems ⟨project, self⟩ scope none none items).1 with
        | none => exact visible_of_isPlain rfl
        | some type => exact helement type hitem
  | .index base index, scope, expected, hscope, _, herrors => by
      unfold checkExpr at herrors
      unfold exprTypes checkExpr
      rw [List.forall_mem_cons, List.forall_mem_append]
      have hpieces : (checkExpr ⟨project, self⟩ scope none base).2 = [] ∧
          (checkExpr ⟨project, self⟩ scope (some .int) index).2 = [] := by
        dsimp only at herrors
        split at herrors <;> simp only [List.append_eq_nil_iff] at herrors
        · exact herrors.1
        · exact herrors.1
        · exact herrors.1.1
      have hfirst := visible_exprTypes hencloses base hscope visibleHint_none hpieces.1
      have hsecond := visible_exprTypes hencloses index hscope
        (visibleHint_some.mpr (visible_of_isPlain rfl)) hpieces.2
      have hbase := hfirst _ (checkExpr_mem_exprTypes _ _ _ _)
      refine ⟨?_, hfirst, hsecond⟩
      dsimp only
      split
      · rename_i inner size htype
        rw [htype] at hbase
        exact visible_array_iff.mp hbase
      · rename_i inner htype
        rw [htype] at hbase
        exact visible_slice_iff.mp hbase
      · exact visible_of_isPlain rfl
  | .sliceView base start stop, scope, expected, hscope, _, herrors => by
      unfold checkExpr at herrors
      unfold exprTypes checkExpr
      rw [List.forall_mem_cons, List.forall_mem_append, List.forall_mem_append]
      have hpieces : ((checkExpr ⟨project, self⟩ scope none base).2 = [] ∧
          checkBound ⟨project, self⟩ scope start = []) ∧
            checkBound ⟨project, self⟩ scope stop = [] := by
        dsimp only at herrors
        split at herrors <;> simp only [List.append_eq_nil_iff] at herrors
        · exact herrors
        · exact herrors
        · exact herrors.1
      have hfirst := visible_exprTypes hencloses base hscope visibleHint_none hpieces.1.1
      have hbase := hfirst _ (checkExpr_mem_exprTypes _ _ _ _)
      refine ⟨?_, ⟨hfirst, visible_boundTypes hencloses start hscope hpieces.1.2⟩,
        visible_boundTypes hencloses stop hscope hpieces.2⟩
      dsimp only
      split
      · rename_i inner size htype
        rw [htype] at hbase
        exact visible_slice_iff.mpr (visible_array_iff.mp hbase)
      · rename_i inner htype
        rw [htype] at hbase
        exact hbase
      · exact visible_of_isPlain rfl
  | .field base fieldName, scope, expected, hscope, _, herrors => by
      unfold exprTypes
      rw [List.forall_mem_cons]
      cases hconst : Context.sourceConst? ⟨project, self⟩ base fieldName with
      | some resolved =>
          unfold checkExpr
          rw [hconst]
          exact ⟨visible_sourceConst hencloses hconst, by simp⟩
      | none =>
          obtain ⟨namesModule, hcheck⟩ := checkExpr_field scope expected hconst
          rw [hcheck] at herrors ⊢
          cases namesModule with
          | true => contradiction
          | false =>
              have hfirst := visible_exprTypes hencloses base hscope visibleHint_none
                (List.append_eq_nil_iff.mp herrors).1
              exact ⟨visible_fieldResult (hfirst _ (checkExpr_mem_exprTypes _ _ _ _)) _ _, hfirst⟩
  | .structLiteral qualifier typeName fields, scope, expected, hscope, _, herrors => by
      unfold checkExpr at herrors
      unfold exprTypes checkExpr
      rw [List.forall_mem_cons]
      cases hresolved : resolveSourceNamedStruct project self qualifier typeName with
      | none =>
          dsimp only at herrors
          rw [hresolved] at herrors
          contradiction
      | some resolved =>
          dsimp only at herrors ⊢
          rw [hresolved] at herrors
          obtain ⟨hconstructed, hfields⟩ := hencloses.constructed _ _ resolved hresolved
          exact ⟨hconstructed, visible_fieldTypes hencloses hfields fields hscope
            (List.append_eq_nil_iff.mp herrors).1⟩
  | .ok value, scope, expected, hscope, hexpected, herrors => by
      by_cases hresult : ∃ inner, expected = some (.result inner)
      · obtain ⟨inner, rfl⟩ := hresult
        have hvisible := visibleHint_some.mp hexpected
        unfold checkExpr at herrors
        unfold exprTypes checkExpr
        rw [List.forall_mem_cons]
        exact ⟨hvisible, visible_exprTypes hencloses value hscope
          (visibleHint_some.mpr (visible_result_iff.mp hvisible))
          (List.append_eq_nil_iff.mp herrors).1⟩
      · rw [checkExpr_plainOk hresult] at herrors
        rw [exprTypes_plainOk hresult, List.forall_mem_cons, checkExpr_plainOk hresult]
        have hvalue := visible_exprTypes hencloses value hscope visibleHint_none herrors
        exact ⟨visible_result_iff.mpr (hvalue _ (checkExpr_mem_exprTypes _ _ _ _)), hvalue⟩
  | .err, scope, expected, _, hexpected, _ => by
      rw [exprTypes, List.forall_mem_singleton]
      unfold checkExpr
      split
      · exact visibleHint_some.mp hexpected
      · exact visible_of_isPlain rfl
  | .alloc type, scope, expected, _, _, herrors => by
      rw [checkExpr] at herrors
      rw [exprTypes, List.forall_mem_singleton, checkExpr]
      exact visible_ptr_iff.mpr (hencloses.written type herrors)
  | .zalloc type, scope, expected, _, _, herrors => by
      rw [checkExpr, List.append_eq_nil_iff] at herrors
      rw [exprTypes, List.forall_mem_singleton, checkExpr]
      exact visible_ptr_iff.mpr (hencloses.written type herrors.2)
  | .addr target, scope, expected, hscope, _, herrors => by
      unfold checkExpr at herrors
      unfold exprTypes checkExpr
      rw [List.forall_mem_cons]
      dsimp only at herrors ⊢
      split at herrors
      · rename_i hstorage
        have htarget := visible_exprTypes hencloses target hscope visibleHint_none herrors
        rw [if_pos hstorage]
        exact ⟨visible_ptr_iff.mpr (htarget _ (checkExpr_mem_exprTypes _ _ _ _)), htarget⟩
      · rename_i hstorage
        exact absurd herrors hstorage
  | .deref target, scope, expected, hscope, _, herrors => by
      unfold checkExpr at herrors
      unfold exprTypes checkExpr
      rw [List.forall_mem_cons]
      dsimp only at herrors ⊢
      split at herrors
      · rename_i inner htype
        have htarget := visible_exprTypes hencloses target hscope visibleHint_none herrors
        have hpointer := htarget _ (checkExpr_mem_exprTypes _ _ _ _)
        rw [htype] at hpointer
        exact ⟨visible_ptr_iff.mp hpointer, htarget⟩
      · exact absurd herrors (by simp)

theorem visible_boundTypes (hencloses : Encloses project self) : (bound : Option Expr) →
    ∀ {scope : Scope}, VisibleScope project self scope →
      checkBound ⟨project, self⟩ scope bound = [] →
        ∀ type ∈ boundTypes ⟨project, self⟩ scope bound, Visible project self type
  | none, scope, _, _ => by
      rw [boundTypes]
      simp
  | some bound, scope, hscope, herrors => by
      rw [checkBound, List.append_eq_nil_iff] at herrors
      rw [boundTypes]
      exact visible_exprTypes hencloses bound hscope
        (visibleHint_some.mpr (visible_of_isPlain rfl)) herrors.1

theorem visible_argumentTypes (hencloses : Encloses project self) : (arguments : List Expr) →
    ∀ {scope : Scope} {hint : Option TypeRef}, VisibleScope project self scope →
      VisibleHint project self hint →
      checkBuiltinArguments ⟨project, self⟩ scope hint arguments = [] →
        ∀ type ∈ argumentTypes ⟨project, self⟩ scope hint arguments, Visible project self type
  | [], scope, hint, _, _, _ => by
      rw [argumentTypes]
      simp
  | argument :: rest, scope, hint, hscope, hhint, herrors => by
      unfold checkBuiltinArguments at herrors
      simp only [List.append_eq_nil_iff] at herrors
      rw [argumentTypes, List.forall_mem_append]
      exact ⟨visible_exprTypes hencloses argument hscope hhint herrors.1.1,
        visible_argumentTypes hencloses rest hscope hhint herrors.2⟩

theorem visible_callTypes (hencloses : Encloses project self) : (arguments : List Expr) →
    ∀ {scope : Scope} {types : List TypeRef}, VisibleScope project self scope →
      (∀ type ∈ types, Visible project self type) →
      checkCallArguments ⟨project, self⟩ scope types arguments = [] →
        ∀ type ∈ callTypes ⟨project, self⟩ scope types arguments, Visible project self type
  | [], scope, types, _, _, _ => by
      cases types <;> simp [callTypes]
  | argument :: rest, scope, [], _, _, _ => by
      simp [callTypes]
  | argument :: rest, scope, type :: types, hscope, htypes, herrors => by
      rw [checkCallArguments] at herrors
      simp only [List.append_eq_nil_iff] at herrors
      rw [callTypes, List.forall_mem_append]
      exact ⟨visible_exprTypes hencloses argument hscope
          (visibleHint_some.mpr (htypes type List.mem_cons_self)) herrors.1.1.1,
        visible_callTypes hencloses rest hscope
          (fun other hother => htypes other (List.mem_cons_of_mem _ hother)) herrors.2⟩

theorem visible_itemTypes (hencloses : Encloses project self) : (items : List Expr) →
    ∀ {scope : Scope} {expected element : Option TypeRef}, VisibleScope project self scope →
      VisibleHint project self expected → VisibleHint project self element →
      (checkItems ⟨project, self⟩ scope expected element items).2 = [] →
        (∀ type ∈ argumentTypes ⟨project, self⟩ scope expected items, Visible project self type) ∧
          VisibleHint project self (checkItems ⟨project, self⟩ scope expected element items).1
  | [], scope, expected, element, _, _, helement, _ => by
      rw [argumentTypes, checkItems]
      exact ⟨by simp, helement⟩
  | item :: rest, scope, expected, some type, hscope, hexpected, helement, herrors => by
      unfold checkItems at herrors
      simp only [List.append_eq_nil_iff] at herrors
      have hitem := visible_exprTypes hencloses item hscope hexpected herrors.1.1
      obtain ⟨hrest, hlast⟩ := visible_itemTypes hencloses rest hscope hexpected helement herrors.2
      unfold checkItems
      rw [argumentTypes, List.forall_mem_append]
      exact ⟨⟨hitem, hrest⟩, hlast⟩
  | item :: rest, scope, expected, none, hscope, hexpected, helement, herrors => by
      unfold checkItems at herrors
      simp only [List.append_eq_nil_iff] at herrors
      have hitem := visible_exprTypes hencloses item hscope hexpected herrors.1.1
      have hnext : VisibleHint project self
          (if (checkExpr ⟨project, self⟩ scope expected item).1 = .unknown then none
            else some (checkExpr ⟨project, self⟩ scope expected item).1) := by
        split
        · exact visibleHint_none
        · exact visibleHint_some.mpr (hitem _ (checkExpr_mem_exprTypes _ _ _ _))
      obtain ⟨hrest, hlast⟩ := visible_itemTypes hencloses rest hscope hexpected hnext herrors.2
      unfold checkItems
      rw [argumentTypes, List.forall_mem_append]
      exact ⟨⟨hitem, hrest⟩, hlast⟩

theorem visible_fieldTypes (hencloses : Encloses project self) {resolved : Resolved StructDecl}
    (hfields : ∀ fieldName type, findStructField project resolved fieldName = some type →
      Visible project self type) : (fields : List (Name × Expr)) →
    ∀ {scope : Scope} {seen : List Nat}, VisibleScope project self scope →
      (checkFieldInits ⟨project, self⟩ scope resolved seen fields).2 = [] →
        ∀ type ∈ fieldTypes ⟨project, self⟩ scope resolved seen fields, Visible project self type
  | [], scope, seen, _, _ => by
      rw [fieldTypes]
      simp
  | (fieldName, value) :: rest, scope, seen, hscope, herrors => by
      unfold checkFieldInits at herrors
      unfold fieldTypes
      cases hindex : resolved.2.fields.findIdx? (fun field => field.name == fieldName) with
      | none =>
          rw [hindex] at herrors
          exact absurd herrors (by simp)
      | some index =>
          cases htype : findStructField project resolved fieldName with
          | none =>
              rw [hindex, htype] at herrors
              exact absurd herrors (by simp)
          | some type =>
              rw [hindex, htype] at herrors
              dsimp only at herrors ⊢
              by_cases hseen : seen.contains index = true
              · rw [if_pos hseen] at herrors
                exact absurd herrors (by simp)
              · rw [if_neg hseen] at herrors ⊢
                simp only [List.append_eq_nil_iff] at herrors
                rw [List.forall_mem_append]
                exact ⟨visible_exprTypes hencloses value hscope
                    (visibleHint_some.mpr (hfields fieldName type htype)) herrors.1.1,
                  visible_fieldTypes hencloses hfields rest hscope herrors.2⟩

end

end Exprs

end Check

end Cnegative
