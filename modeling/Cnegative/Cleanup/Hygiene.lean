import Cnegative.Lower.Project

namespace Cnegative

namespace Lower

open Library (Ref Frame Chain)
open Library.Chain (Extends names)

/-! Which binding a name of a deferred statement reaches where the statement is
put into the IR. -/

mutual

/-- The names of an expression that are looked up as locals; `zone` are those of a `zalloc`. -/
def exprNames (ctx : Context) (zone : List Name) : Expr → List Name
  | .name name => [name]
  | .unary _ operand => exprNames ctx zone operand
  | .binary _ left right => exprNames ctx zone left ++ exprNames ctx zone right
  | .ifExpr condition thenExpr elseExpr =>
      exprNames ctx zone condition ++ exprNames ctx zone thenExpr ++ exprNames ctx zone elseExpr
  | .call _ arguments => itemsNames ctx zone arguments
  | .arrayLiteral items repeatCount =>
      match repeatCount with
      | none => itemsNames ctx zone items
      | some 0 => []
      | some (_ + 1) => firstNames ctx zone items
  | .index base index => exprNames ctx zone base ++ exprNames ctx zone index
  | .sliceView base start stop =>
      exprNames ctx zone base ++ boundNames ctx zone start ++ boundNames ctx zone stop
  | .field base fieldName =>
      if (ctx.sourceConst? base fieldName).isSome then [] else exprNames ctx zone base
  | .structLiteral _ _ fields => fieldsNames ctx zone fields
  | .ok value => exprNames ctx zone value
  | .addr target | .deref target => exprNames ctx zone target
  | .zalloc _ => zone
  | .int _ | .bool _ | .string _ | .null | .err | .alloc _ => []

def boundNames (ctx : Context) (zone : List Name) : Option Expr → List Name
  | none => []
  | some bound => exprNames ctx zone bound

def itemsNames (ctx : Context) (zone : List Name) : List Expr → List Name
  | [] => []
  | item :: rest => exprNames ctx zone item ++ itemsNames ctx zone rest

def firstNames (ctx : Context) (zone : List Name) : List Expr → List Name
  | [] => []
  | item :: _ => exprNames ctx zone item

def fieldsNames (ctx : Context) (zone : List Name) : List (Name × Expr) → List Name
  | [] => []
  | (_, value) :: rest => exprNames ctx zone value ++ fieldsNames ctx zone rest

end

def deferredNames (ctx : Context) (zone : List Name) : Deferred → List Name
  | .expr value | .free value => exprNames ctx zone value

/-- Every local of the deferred statement means at the site what it meant at the
`defer`. -/
def Emission.Hygienic (ctx : Context) (emission : Emission) : Prop :=
  match emission.entry with
  | .zoneRelease _ => True
  | .statement deferred scope =>
      ∀ name ∈ deferredNames ctx [Scope.currentZoneName scope] deferred, ∀ binding,
        Chain.resolve scope name = some binding → Chain.resolve emission.site name = some binding

/-! The binders alone: `bound` lists the names in scope, the newest first. -/

/-- A deferred statement still to run, with the names in scope at its `defer` and the zone there. -/
structure Pending where
  deferred : Deferred
  before : List Name
  zone : Name

/-- None of the locals of the statement was bound again since the `defer`. -/
def Pending.keptAt (ctx : Context) (bound : List Name) (pending : Pending) : Bool :=
  (deferredNames ctx [pending.zone] pending.deferred).all fun name =>
    !(pending.before.contains name &&
      (bound.take (bound.length - pending.before.length)).contains name)

structure Walk where
  kept : Bool
  bound : List Name
  nextTemp : Nat

mutual

/-- Whether every exit inside the statement keeps the locals of the deferred
statements it runs. -/
def walkStatement (ctx : Context) (pending : List Pending) (zone : Name) (bound : List Name)
    (nextTemp : Nat) : Stmt → Walk
  | .letStmt name _ _ _ => ⟨true, name :: bound, nextTemp⟩
  | .zone body =>
      let name := generatedName "zone" nextTemp
      let inner := walkStatements ctx pending name (name :: bound) (nextTemp + 1) [] body
      ⟨inner.kept, bound, inner.nextTemp⟩
  | .ifStmt _ thenBlock elseBlock =>
      let first := walkStatements ctx pending zone bound nextTemp [] thenBlock
      let second := walkElse ctx pending zone bound first.nextTemp elseBlock
      ⟨first.kept && second.kept, bound, second.nextTemp⟩
  | .whileStmt _ body | .loop body =>
      let inner := walkStatements ctx pending zone bound nextTemp [] body
      ⟨inner.kept, bound, inner.nextTemp⟩
  | .forStmt name _ _ _ body =>
      let inner := walkStatements ctx pending zone (name :: bound) nextTemp [] body
      ⟨inner.kept, bound, inner.nextTemp⟩
  | _ => ⟨true, bound, nextTemp⟩

def walkElse (ctx : Context) (pending : List Pending) (zone : Name) (bound : List Name)
    (nextTemp : Nat) : Option (List Stmt) → Walk
  | none => ⟨true, bound, nextTemp⟩
  | some block =>
      let inner := walkStatements ctx pending zone bound nextTemp [] block
      ⟨inner.kept, bound, inner.nextTemp⟩

/-- `own` are the deferred statements of the block itself. -/
def walkStatements (ctx : Context) (outer : List Pending) (zone : Name) (bound : List Name)
    (nextTemp : Nat) (own : List Pending) : List Stmt → Walk
  | [] => ⟨own.all (Pending.keptAt ctx bound), bound, nextTemp⟩
  | .defer deferred :: rest =>
      walkStatements ctx outer zone bound nextTemp (⟨deferred, bound, zone⟩ :: own) rest
  | .tryStmt name _ :: rest =>
      let temp := generatedName "try" nextTemp
      let remaining := walkStatements ctx outer zone (name :: temp :: bound) (nextTemp + 1) own rest
      ⟨(own ++ outer).all (Pending.keptAt ctx (temp :: bound)) && remaining.kept,
        remaining.bound, remaining.nextTemp⟩
  | .returnStmt _ :: _ => ⟨(own ++ outer).all (Pending.keptAt ctx bound), bound, nextTemp⟩
  | statement :: rest =>
      let first := walkStatement ctx (own ++ outer) zone bound nextTemp statement
      let remaining := walkStatements ctx outer zone first.bound first.nextTemp own rest
      ⟨first.kept && remaining.kept, remaining.bound, remaining.nextTemp⟩

end

theorem walkStatements_plain {ctx : Context} {outer own : List Pending} {zone : Name}
    {bound : List Name} {nextTemp : Nat} {statement : Stmt} (hplain : isPlain statement = true)
    (rest : List Stmt) :
    walkStatements ctx outer zone bound nextTemp own (statement :: rest) =
      let first := walkStatement ctx (own ++ outer) zone bound nextTemp statement
      let remaining := walkStatements ctx outer zone first.bound first.nextTemp own rest
      ⟨first.kept && remaining.kept, remaining.bound, remaining.nextTemp⟩ := by
  cases statement with
  | defer _ | tryStmt _ _ | returnStmt _ => simp [isPlain] at hplain
  | _ => rw [walkStatements] <;> simp

/-- No exit of the body runs a deferred statement after one of its locals was
bound again; a parameter is bound before the body starts. -/
def keepsDeferredNames (ctx : Context) (function : FunctionDecl) (nextTemp : Nat)
    (body : Block) : Bool :=
  (walkStatements ctx [] "" (function.parameters.map (·.name)).reverse nextTemp [] body).kept

/-! The lowering follows the walk. -/

theorem define_eq_some {scope defined : Scope} {name : Name} {type : TypeRef} {isMutable : Bool}
    (hdefine : Scope.define scope name type isMutable = some defined) :
    Extends scope defined [name] := by
  cases scope with
  | nil => simp [Scope.define] at hdefine
  | cons frame outer =>
      simp only [Scope.define] at hdefine
      split at hdefine
      · simp at hdefine
      · rename_i hfresh
        simp only [Option.some.injEq] at hdefine
        rw [← hdefine]
        exact .define name _ .refl fun hmem =>
          hfresh ((Frame.find?_isSome_iff frame name).mpr hmem)

@[simp]
theorem currentZoneName_push_empty (scope : Scope) :
    Scope.currentZoneName (Scope.push scope "") = Scope.currentZoneName scope := by
  simp [Scope.push, Scope.currentZoneName]

@[simp]
theorem currentZoneName_pushBlock (scope : Scope) :
    Scope.currentZoneName (Scope.pushBlock scope) = Scope.currentZoneName scope := by
  cases scope with
  | nil => rfl
  | cons frame outer =>
      by_cases hempty : frame.info = "" <;>
        simp [Scope.pushBlock, Scope.zoneName, Scope.push, Scope.currentZoneName, hempty]

theorem currentZoneName_define {scope defined : Scope} {name : Name} {type : TypeRef}
    {isMutable : Bool} (hdefine : Scope.define scope name type isMutable = some defined) :
    Scope.currentZoneName defined = Scope.currentZoneName scope := by
  cases scope with
  | nil => simp [Scope.define] at hdefine
  | cons frame outer =>
      simp only [Scope.define] at hdefine
      split at hdefine
      · simp at hdefine
      · simp only [Option.some.injEq] at hdefine
        rw [← hdefine]
        rfl

theorem generatedName_ne_empty (kind : String) (index : Nat) : generatedName kind index ≠ "" := by
  intro hempty
  have hlist := congrArg String.toList hempty
  simp [generatedName] at hlist

theorem currentZoneName_zone {scope zoneScope : Scope} {nextTemp : Nat} {type : TypeRef}
    {isMutable : Bool}
    (hzone : Scope.define (Scope.push scope (generatedName "zone" nextTemp))
      (generatedName "zone" nextTemp) type isMutable = some zoneScope) :
    Scope.currentZoneName (Scope.pushBlock zoneScope) = generatedName "zone" nextTemp := by
  rw [currentZoneName_pushBlock, currentZoneName_define hzone]
  simp [Scope.push, Scope.currentZoneName, generatedName_ne_empty]

/-- The entry was deferred in `scope` or in a scope that `scope` extends. -/
def DeferEntry.Below (scope : Scope) : DeferEntry → Prop
  | .zoneRelease _ => True
  | .statement _ before => ∃ added, Extends before scope added

theorem DeferEntry.Below.extend {scope extended : Scope} {added : List Name} {entry : DeferEntry}
    (hbelow : entry.Below scope) (hextends : Extends scope extended added) :
    entry.Below extended := by
  cases entry with
  | zoneRelease zoneName => trivial
  | statement deferred before =>
      obtain ⟨earlier, hearlier⟩ := hbelow
      exact ⟨_, hearlier.trans hextends⟩

def pendings (entries : DeferFrame) : List Pending :=
  entries.filterMap fun entry =>
    match entry with
    | .zoneRelease _ => none
    | .statement deferred scope => some ⟨deferred, names scope, Scope.currentZoneName scope⟩

theorem pendings_append (first second : DeferFrame) :
    pendings (first ++ second) = pendings first ++ pendings second :=
  List.filterMap_append

/-- At a site that extends the scope of the `defer`, hygiene is a matter of names. -/
theorem hygienic_iff_keptAt {ctx : Context} {deferred : Deferred} {scope site : Scope}
    {added : List Name} (hextends : Extends scope site added) :
    Emission.Hygienic ctx ⟨.statement deferred scope, site⟩ ↔
      Pending.keptAt ctx (names site)
          ⟨deferred, names scope, Scope.currentZoneName scope⟩ = true := by
  have htake : (names site).take ((names site).length - (names scope).length) = added := by
    rw [hextends.names_eq, List.length_append, Nat.add_sub_cancel, List.take_left']
    rfl
  simp only [Emission.Hygienic, Pending.keptAt, htake, List.all_eq_true, Bool.not_eq_true',
    Bool.and_eq_false_iff]
  constructor
  · intro hygienic name hname
    by_cases hbound : name ∈ names scope
    · obtain ⟨binding, hresolve⟩ :=
        Option.isSome_iff_exists.mp ((Chain.resolve_isSome_iff scope name).mpr hbound)
      right
      have hkept := (hextends.resolve_eq_iff hresolve).mp (hygienic name hname binding hresolve)
      simpa using hkept
    · left
      simpa using hbound
  · intro hkept name hname binding hresolve
    have hbound : name ∈ names scope := by
      rw [← Chain.resolve_isSome_iff, hresolve]
      rfl
    rw [hextends.resolve_eq_iff hresolve]
    rcases hkept name hname with hunbound | hfresh
    · simp [hbound] at hunbound
    · simpa using hfresh

theorem emissionsAt_hygienic_iff {ctx : Context} {site : Scope} {entries : DeferFrame}
    (hbelow : ∀ entry ∈ entries, entry.Below site) :
    (∀ emission ∈ emissionsAt site entries, emission.Hygienic ctx) ↔
      (pendings entries).all (Pending.keptAt ctx (names site)) = true := by
  induction entries with
  | nil => simp [emissionsAt, pendings]
  | cons entry rest ih =>
      have hrest := ih fun other hother => hbelow other (List.mem_cons_of_mem _ hother)
      have hfirst := hbelow entry List.mem_cons_self
      simp only [emissionsAt, pendings, List.map_cons, List.forall_mem_cons] at hrest ⊢
      rw [hrest]
      cases entry with
      | zoneRelease zoneName => simp [Emission.Hygienic]
      | statement deferred before =>
          obtain ⟨added, hextends⟩ := hfirst
          rw [hygienic_iff_keptAt hextends]
          simp

/-- What the lowering of a statement or block shares with the walk over it. -/
structure Follows {α : Type} (ctx : Context) (scope : Scope) (lowered : Lowered α)
    (walk : Walk) : Prop where
  bound : walk.bound = names lowered.scope
  nextTemp : walk.nextTemp = lowered.nextTemp
  extended : ∃ added, Extends scope lowered.scope added
  zone : Scope.currentZoneName lowered.scope = Scope.currentZoneName scope
  hygienic : (∀ emission ∈ lowered.emissions, emission.Hygienic ctx) ↔ walk.kept = true

theorem forall_mem_append_iff {α : Type} {first second : List α} {p : α → Prop} :
    (∀ entry ∈ first ++ second, p entry) ↔
      (∀ entry ∈ first, p entry) ∧ ∀ entry ∈ second, p entry :=
  List.forall_mem_append

section Follow

variable {ctx : Context} {constUse : ConstUse} {returnType : TypeRef}

theorem lowerTry_follows {frames : List DeferFrame} {scope : Scope} {nextTemp : Nat} {name : Name}
    {initializer : Expr} {lowered : Lowered (List IrStmt)}
    (hbelow : ∀ entry ∈ frames.flatten, entry.Below scope)
    (hlowered : lowerTry ctx constUse returnType frames scope nextTemp name initializer =
      some lowered) :
    Follows ctx scope lowered
      ⟨(pendings frames.flatten).all
          (Pending.keptAt ctx (generatedName "try" nextTemp :: names scope)),
        name :: generatedName "try" nextTemp :: names scope, nextTemp + 1⟩ := by
  simp only [lowerTry, Option.bind_eq_bind, Option.bind_eq_some_iff] at hlowered
  obtain ⟨init, -, hlowered⟩ := hlowered
  split at hlowered
  · simp only [Option.bind_eq_some_iff, Option.pure_def, Option.some.injEq] at hlowered
    obtain ⟨withTemp, htemp, cleanup, -, defined, hdefined, rfl⟩ := hlowered
    have htemp' := define_eq_some htemp
    have hdefined' := define_eq_some hdefined
    refine ⟨?_, rfl, ⟨_, htemp'.trans hdefined'⟩,
      (currentZoneName_define hdefined).trans (currentZoneName_define htemp), ?_⟩
    · simp [hdefined'.names_eq, htemp'.names_eq]
    · have hsite : Extends scope (Scope.push withTemp "") [generatedName "try" nextTemp] :=
        .push "" htemp'
      rw [emissionsAt_hygienic_iff fun entry hentry => (hbelow entry hentry).extend hsite,
        hsite.names_eq]
      rfl
  · simp at hlowered

theorem lowerReturn_follows {frames : List DeferFrame} {scope : Scope} {nextTemp : Nat}
    {value : Option Expr} {lowered : Lowered (List IrStmt)}
    (hbelow : ∀ entry ∈ frames.flatten, entry.Below scope)
    (hlowered : lowerReturn ctx constUse returnType frames scope nextTemp value = some lowered) :
    Follows ctx scope lowered
      ⟨(pendings frames.flatten).all (Pending.keptAt ctx (names scope)), names scope,
        nextTemp⟩ := by
  simp only [lowerReturn, Option.bind_eq_bind, Option.bind_eq_some_iff, Option.pure_def,
    Option.some.injEq] at hlowered
  obtain ⟨cleanup, -, result, -, rfl⟩ := hlowered
  exact ⟨rfl, rfl, ⟨_, .refl⟩, rfl, emissionsAt_hygienic_iff hbelow⟩

theorem below_push {frames : List DeferFrame} {scope : Scope}
    (hbelow : ∀ entry ∈ frames.flatten, entry.Below scope) :
    ∀ entry ∈ ([] :: frames).flatten, entry.Below (Scope.pushBlock scope) :=
  fun entry hentry => (hbelow entry hentry).extend (.push _ .refl)

theorem Follows.of_no_emission {α : Type} {scope : Scope} {nextTemp : Nat} (value : α) :
    Follows ctx scope ⟨value, scope, nextTemp, []⟩ ⟨true, names scope, nextTemp⟩ :=
  ⟨rfl, rfl, ⟨_, .refl⟩, rfl, by simp⟩

mutual

theorem lowerStatement_follows {frames : List DeferFrame} {scope : Scope} {nextTemp : Nat}
    {lowered : Lowered IrStmt} (hbelow : ∀ entry ∈ frames.flatten, entry.Below scope) :
    (statement : Stmt) →
    lowerStatement ctx constUse returnType frames scope nextTemp statement = some lowered →
    Follows ctx scope lowered
      (walkStatement ctx (pendings frames.flatten) (Scope.currentZoneName scope) (names scope)
        nextTemp statement)
  | .letStmt name isMutable sourceType initializer, hlowered => by
      simp only [lowerStatement, Option.bind_eq_bind, Option.bind_eq_some_iff, Option.pure_def,
        Option.some.injEq] at hlowered
      obtain ⟨init, -, defined, hdefined, rfl⟩ := hlowered
      have hextends := define_eq_some hdefined
      exact ⟨by simp [walkStatement, hextends.names_eq], rfl, ⟨_, hextends⟩,
        currentZoneName_define hdefined, by simp [walkStatement]⟩
  | .assign target value, hlowered => by
      simp only [lowerStatement, Option.bind_eq_bind, Option.bind_eq_some_iff, Option.pure_def,
        Option.some.injEq] at hlowered
      obtain ⟨first, -, second, -, rfl⟩ := hlowered
      exact Follows.of_no_emission _
  | .expr value, hlowered => by
      simp only [lowerStatement, Option.bind_eq_bind, Option.bind_eq_some_iff, Option.pure_def,
        Option.some.injEq] at hlowered
      obtain ⟨first, -, rfl⟩ := hlowered
      exact Follows.of_no_emission _
  | .free value, hlowered => by
      simp only [lowerStatement, Option.bind_eq_bind, Option.bind_eq_some_iff, Option.pure_def,
        Option.some.injEq] at hlowered
      obtain ⟨first, -, rfl⟩ := hlowered
      exact Follows.of_no_emission _
  | .zone body, hlowered => by
      simp only [lowerStatement, Option.bind_eq_bind, Option.bind_eq_some_iff, Option.pure_def,
        Option.some.injEq] at hlowered
      obtain ⟨zoneScope, hzone, inner, hinner, rfl⟩ := hlowered
      have hextends : Extends scope (Scope.pushBlock zoneScope) [generatedName "zone" nextTemp] :=
        .push _ (Extends.trans (.push _ .refl) (define_eq_some hzone))
      have hfollows := lowerStatements_follows
        (by
          intro entry hentry
          simp only [List.flatten_cons, List.nil_append, List.cons_append,
            List.mem_cons] at hentry
          rcases hentry with rfl | hentry
          · trivial
          · exact (hbelow entry hentry).extend hextends) body hinner
      rw [hextends.names_eq, currentZoneName_zone hzone] at hfollows
      refine ⟨rfl, hfollows.nextTemp, ⟨_, .refl⟩, rfl, ?_⟩
      rw [forall_mem_append_iff, hfollows.hygienic]
      simp [emissionsAt, Emission.Hygienic, walkStatement, pendings]
  | .ifStmt condition thenBlock elseBlock, hlowered => by
      simp only [lowerStatement, Option.bind_eq_bind, Option.bind_eq_some_iff, Option.pure_def,
        Option.some.injEq] at hlowered
      obtain ⟨test, -, first, hfirst, second, hsecond, rfl⟩ := hlowered
      have hthen := lowerStatements_follows (below_push hbelow) thenBlock hfirst
      rw [currentZoneName_pushBlock] at hthen
      rw [← hthen.nextTemp] at hsecond
      have helse := lowerElse_follows hbelow elseBlock hsecond
      refine ⟨rfl, helse.nextTemp, ⟨_, .refl⟩, rfl, ?_⟩
      rw [forall_mem_append_iff, hthen.hygienic, helse.hygienic, walkStatement,
        Bool.and_eq_true]
      rfl
  | .whileStmt condition body, hlowered => by
      simp only [lowerStatement, Option.bind_eq_bind, Option.bind_eq_some_iff, Option.pure_def,
        Option.some.injEq] at hlowered
      obtain ⟨test, -, inner, hinner, rfl⟩ := hlowered
      have hfollows := lowerStatements_follows (below_push hbelow) body hinner
      rw [currentZoneName_pushBlock] at hfollows
      exact ⟨rfl, hfollows.nextTemp, ⟨_, .refl⟩, rfl, hfollows.hygienic⟩
  | .loop body, hlowered => by
      simp only [lowerStatement, Option.bind_eq_bind, Option.bind_eq_some_iff, Option.pure_def,
        Option.some.injEq] at hlowered
      obtain ⟨inner, hinner, rfl⟩ := hlowered
      have hfollows := lowerStatements_follows (below_push hbelow) body hinner
      rw [currentZoneName_pushBlock] at hfollows
      exact ⟨rfl, hfollows.nextTemp, ⟨_, .refl⟩, rfl, hfollows.hygienic⟩
  | .forStmt name sourceType start stop body, hlowered => by
      simp only [lowerStatement, Option.bind_eq_bind, Option.bind_eq_some_iff, Option.pure_def,
        Option.some.injEq] at hlowered
      obtain ⟨first, -, last, -, loopScope, hloop, inner, hinner, rfl⟩ := hlowered
      have hextends : Extends scope (Scope.pushBlock loopScope) [name] :=
        .push _ (Extends.trans (.push _ .refl) (define_eq_some hloop))
      have hbelow' : ∀ entry ∈ ([] :: frames).flatten, entry.Below (Scope.pushBlock loopScope) :=
        fun entry hentry => (hbelow entry hentry).extend hextends
      have hfollows := lowerStatements_follows hbelow' body hinner
      rw [hextends.names_eq, currentZoneName_pushBlock, currentZoneName_define hloop,
        currentZoneName_push_empty] at hfollows
      exact ⟨rfl, hfollows.nextTemp, ⟨_, .refl⟩, rfl, hfollows.hygienic⟩

theorem lowerElse_follows {frames : List DeferFrame} {scope : Scope} {nextTemp : Nat}
    {lowered : Lowered (Option IrBlock)} (hbelow : ∀ entry ∈ frames.flatten, entry.Below scope) :
    (elseBlock : Option (List Stmt)) →
    lowerElse ctx constUse returnType frames scope nextTemp elseBlock = some lowered →
    Follows ctx scope lowered
      (walkElse ctx (pendings frames.flatten) (Scope.currentZoneName scope) (names scope) nextTemp
        elseBlock)
  | none, hlowered => by
      simp only [lowerElse, Option.some.injEq] at hlowered
      subst hlowered
      exact Follows.of_no_emission _
  | some block, hlowered => by
      simp only [lowerElse, Option.bind_eq_bind, Option.bind_eq_some_iff, Option.pure_def,
        Option.some.injEq] at hlowered
      obtain ⟨inner, hinner, rfl⟩ := hlowered
      have hfollows := lowerStatements_follows (below_push hbelow) block hinner
      rw [currentZoneName_pushBlock] at hfollows
      exact ⟨rfl, hfollows.nextTemp, ⟨_, .refl⟩, rfl, hfollows.hygienic⟩

theorem lowerStatements_follows {outer : List DeferFrame} {scope : Scope} {nextTemp : Nat}
    {entries : DeferFrame} {lowered : Lowered (List IrStmt)}
    (hbelow : ∀ entry ∈ (entries :: outer).flatten, entry.Below scope) :
    (statements : List Stmt) →
    lowerStatements ctx constUse returnType outer scope nextTemp entries statements =
      some lowered →
    Follows ctx scope lowered
      (walkStatements ctx (pendings outer.flatten) (Scope.currentZoneName scope) (names scope)
        nextTemp (pendings entries) statements)
  | [], hlowered => by
      simp only [lowerStatements, Option.bind_eq_bind, Option.bind_eq_some_iff, Option.pure_def,
        Option.some.injEq] at hlowered
      obtain ⟨cleanup, -, rfl⟩ := hlowered
      refine ⟨rfl, rfl, ⟨_, .refl⟩, rfl, emissionsAt_hygienic_iff fun entry hentry => ?_⟩
      exact hbelow entry (List.mem_append_left _ hentry)
  | statement :: rest, hlowered => by
      cases hplain : isPlain statement with
      | true =>
          simp only [lowerStatements_plain ctx constUse hplain, Option.bind_eq_bind,
            Option.bind_eq_some_iff, Option.pure_def, Option.some.injEq] at hlowered
          obtain ⟨first, hfirst, remaining, hremaining, rfl⟩ := hlowered
          have hstatement := lowerStatement_follows hbelow statement hfirst
          obtain ⟨added, hextends⟩ := hstatement.extended
          have hrest := lowerStatements_follows
            (fun entry hentry => (hbelow entry hentry).extend hextends) rest hremaining
          obtain ⟨more, hmore⟩ := hrest.extended
          rw [List.flatten_cons, pendings_append] at hstatement
          have hzone := hrest.zone.trans hstatement.zone
          rw [← hstatement.bound, ← hstatement.nextTemp, hstatement.zone] at hrest
          rw [walkStatements_plain hplain]
          refine ⟨hrest.bound, hrest.nextTemp, ⟨_, hextends.trans hmore⟩, hzone, ?_⟩
          rw [forall_mem_append_iff, hstatement.hygienic, hrest.hygienic, Bool.and_eq_true]
      | false =>
          cases statement with
          | defer deferred =>
              have hbelow' : ∀ entry ∈
                  ((DeferEntry.statement deferred scope :: entries) :: outer).flatten,
                  entry.Below scope := by
                intro entry hentry
                rcases List.mem_cons.mp hentry with rfl | hentry
                · exact ⟨_, .refl⟩
                · exact hbelow entry hentry
              rw [lowerStatements] at hlowered
              exact lowerStatements_follows hbelow' rest hlowered
          | tryStmt name initializer =>
              simp only [lowerStatements, Option.bind_eq_bind, Option.bind_eq_some_iff,
                Option.pure_def, Option.some.injEq] at hlowered
              obtain ⟨first, hfirst, remaining, hremaining, rfl⟩ := hlowered
              have htry := lowerTry_follows hbelow hfirst
              obtain ⟨added, hextends⟩ := htry.extended
              have hrest := lowerStatements_follows
                (fun entry hentry => (hbelow entry hentry).extend hextends) rest hremaining
              obtain ⟨more, hmore⟩ := hrest.extended
              have hzone := hrest.zone.trans htry.zone
              rw [← htry.bound, ← htry.nextTemp, htry.zone] at hrest
              refine ⟨hrest.bound, hrest.nextTemp, ⟨_, hextends.trans hmore⟩, hzone, ?_⟩
              rw [forall_mem_append_iff, htry.hygienic, hrest.hygienic, walkStatements,
                Bool.and_eq_true, List.flatten_cons, pendings_append]
          | returnStmt value =>
              rw [lowerStatements] at hlowered
              rw [walkStatements, ← pendings_append, ← List.flatten_cons]
              exact lowerReturn_follows hbelow hlowered
          | _ => simp [isPlain] at hplain

end

end Follow

end Lower

end Cnegative
