import Cnegative.Semantics.Stmt
import Cnegative.Optimize.Fold
import Cnegative.Lower.Project
import Cnegative.Check.Accepted
import Cnegative.Library.Related
import Cnegative.Library.Runs

namespace Cnegative

/-! Functions that cannot run off their end. -/

mutual

/-- Control does not get behind the statement: nothing jumps out of a `loop`. -/
def IrStmt.leaves : IrStmt → Bool
  | .returnStmt _ => true
  | .ifStmt _ thenBlock elseBlock => blockLeaves thenBlock && elseLeaves elseBlock
  | .loop _ => true
  | _ => false

def elseLeaves : Option (List IrStmt) → Bool
  | none => false
  | some block => blockLeaves block

def blockLeaves : List IrStmt → Bool
  | [] => false
  | statement :: rest => statement.leaves || blockLeaves rest

end

theorem blockLeaves_append (first second : List IrStmt) :
    blockLeaves (first ++ second) = (blockLeaves first || blockLeaves second) := by
  induction first with
  | nil => simp [blockLeaves]
  | cons statement rest ih => simp [blockLeaves, ih, Bool.or_assoc]

/-! The lowering of a block that guarantees a return. -/

namespace Lower

variable {ctx : Context} {constUse : ConstUse} {returnType : TypeRef}

mutual

theorem lowerStatement_leaves {frames : List DeferFrame} {scope : Scope} {nextTemp : Nat}
    {lowered : Lowered IrStmt} :
    (statement : Stmt) →
      lowerStatement ctx constUse returnType frames scope nextTemp statement = some lowered →
      statement.guaranteesReturn = true → lowered.value.leaves = true
  | .ifStmt condition thenBlock elseBlock, hlowered, hreturns => by
      simp only [Stmt.guaranteesReturn, Bool.and_eq_true] at hreturns
      simp only [lowerStatement, Option.bind_eq_bind, Option.bind_eq_some_iff, Option.pure_def,
        Option.some.injEq] at hlowered
      obtain ⟨test, -, first, hfirst, second, hsecond, rfl⟩ := hlowered
      simp only [IrStmt.leaves, Bool.and_eq_true]
      exact ⟨lowerStatements_leaves thenBlock hfirst hreturns.1,
        lowerElse_leaves elseBlock hsecond hreturns.2⟩
  | .loop body, hlowered, _ => by
      simp only [lowerStatement, Option.bind_eq_bind, Option.bind_eq_some_iff, Option.pure_def,
        Option.some.injEq] at hlowered
      obtain ⟨first, -, rfl⟩ := hlowered
      rfl
  | .returnStmt _, hlowered, _ => by simp [lowerStatement] at hlowered
  | .letStmt _ _ _ _, _, hreturns | .assign _ _, _, hreturns | .expr _, _, hreturns
  | .defer _, _, hreturns | .tryStmt _ _, _, hreturns | .zone _, _, hreturns
  | .whileStmt _ _, _, hreturns | .forStmt _ _ _ _ _, _, hreturns | .free _, _, hreturns => by
      simp [Stmt.guaranteesReturn] at hreturns

theorem lowerElse_leaves {frames : List DeferFrame} {scope : Scope} {nextTemp : Nat}
    {lowered : Lowered (Option IrBlock)} :
    (block : Option (List Stmt)) →
      lowerElse ctx constUse returnType frames scope nextTemp block = some lowered →
      elseGuaranteesReturn block = true → elseLeaves lowered.value = true
  | none, _, hreturns => by simp [elseGuaranteesReturn] at hreturns
  | some block, hlowered, hreturns => by
      simp only [lowerElse, Option.bind_eq_bind, Option.bind_eq_some_iff, Option.pure_def,
        Option.some.injEq] at hlowered
      obtain ⟨first, hfirst, rfl⟩ := hlowered
      exact lowerStatements_leaves block hfirst hreturns

theorem lowerStatements_leaves {outer : List DeferFrame} {scope : Scope} {nextTemp : Nat}
    {entries : DeferFrame} {lowered : Lowered (List IrStmt)} :
    (statements : List Stmt) →
      lowerStatements ctx constUse returnType outer scope nextTemp entries statements =
        some lowered →
      blockGuaranteesReturn statements = true → blockLeaves lowered.value = true
  | [], _, hreturns => by simp [blockGuaranteesReturn] at hreturns
  | statement :: rest, hlowered, hreturns => by
      by_cases hplain : isPlain statement = true
      · rw [lowerStatements_plain ctx constUse hplain] at hlowered
        simp only [Option.bind_eq_bind, Option.bind_eq_some_iff, Option.pure_def,
          Option.some.injEq] at hlowered
        obtain ⟨first, hfirst, remaining, hrest, rfl⟩ := hlowered
        simp only [blockGuaranteesReturn, Bool.or_eq_true] at hreturns
        simp only [blockLeaves, Bool.or_eq_true]
        exact hreturns.imp (lowerStatement_leaves statement hfirst)
          (lowerStatements_leaves rest hrest)
      · cases statement with
        | defer deferred =>
            rw [lowerStatements] at hlowered
            exact lowerStatements_leaves rest hlowered
              (by simpa [blockGuaranteesReturn, Stmt.guaranteesReturn] using hreturns)
        | tryStmt name initializer =>
            simp only [lowerStatements, Option.bind_eq_bind, Option.bind_eq_some_iff,
              Option.pure_def, Option.some.injEq] at hlowered
            obtain ⟨first, -, remaining, hrest, rfl⟩ := hlowered
            rw [blockLeaves_append, lowerStatements_leaves rest hrest
              (by simpa [blockGuaranteesReturn, Stmt.guaranteesReturn] using hreturns),
              Bool.or_true]
        | returnStmt value =>
            simp only [lowerStatements, lowerReturn, Option.bind_eq_bind, Option.bind_eq_some_iff,
              Option.pure_def, Option.some.injEq] at hlowered
            obtain ⟨cleanup, -, result, -, rfl⟩ := hlowered
            rw [blockLeaves_append]
            simp [blockLeaves, IrStmt.leaves]
        | _ => exact absurd rfl hplain

end

end Lower

/-! The optimizer keeps it. -/

namespace Optimize

mutual

theorem optimizeStmt_leaves {folded : IrStmt} :
    (statement : IrStmt) → optimizeStmt statement = some folded →
      statement.leaves = true → folded.leaves = true
  | .returnStmt value, hfolded, _ => by
      simp only [optimizeStmt, Option.bind_eq_bind, Option.bind_eq_some_iff, Option.pure_def,
        Option.some.injEq] at hfolded
      obtain ⟨result, -, rfl⟩ := hfolded
      rfl
  | .ifStmt condition thenBlock elseBlock, hfolded, hleaves => by
      simp only [optimizeStmt, Option.bind_eq_bind, Option.bind_eq_some_iff, Option.pure_def,
        Option.some.injEq] at hfolded
      obtain ⟨test, -, first, hfirst, second, hsecond, rfl⟩ := hfolded
      simp only [IrStmt.leaves, Bool.and_eq_true] at hleaves ⊢
      exact ⟨optimizeBlock_leaves thenBlock hfirst hleaves.1,
        optimizeElse_leaves elseBlock hsecond hleaves.2⟩
  | .loop body, hfolded, _ => by
      simp only [optimizeStmt, Option.bind_eq_bind, Option.bind_eq_some_iff, Option.pure_def,
        Option.some.injEq] at hfolded
      obtain ⟨first, -, rfl⟩ := hfolded
      rfl
  | .letStmt _ _ _ _, _, hleaves | .assign _ _, _, hleaves | .expr _, _, hleaves
  | .zone _ _, _, hleaves | .whileStmt _ _, _, hleaves | .forStmt _ _ _ _ _, _, hleaves
  | .free _, _, hleaves => by
      simp [IrStmt.leaves] at hleaves

theorem optimizeElse_leaves {folded : Option (List IrStmt)} :
    (block : Option (List IrStmt)) → optimizeElse block = some folded →
      elseLeaves block = true → elseLeaves folded = true
  | none, _, hleaves => by simp [elseLeaves] at hleaves
  | some block, hfolded, hleaves => by
      simp only [optimizeElse, Option.bind_eq_bind, Option.bind_eq_some_iff, Option.pure_def,
        Option.some.injEq] at hfolded
      obtain ⟨first, hfirst, rfl⟩ := hfolded
      exact optimizeBlock_leaves block hfirst hleaves

theorem optimizeBlock_leaves {folded : List IrStmt} :
    (block : List IrStmt) → optimizeBlock block = some folded →
      blockLeaves block = true → blockLeaves folded = true
  | [], _, hleaves => by simp [blockLeaves] at hleaves
  | statement :: rest, hfolded, hleaves => by
      simp only [optimizeBlock, Option.bind_eq_bind, Option.bind_eq_some_iff,
        Option.pure_def] at hfolded
      obtain ⟨first, hfirst, hrest⟩ := hfolded
      simp only [blockLeaves, Bool.or_eq_true] at hleaves
      split at hrest
      · rename_i hreturn
        have hstatement : statement.leaves = true := by
          cases statement <;> simp [isReturn, IrStmt.leaves] at hreturn ⊢
        simp only [Option.some.injEq] at hrest
        rw [← hrest]
        simp [blockLeaves, optimizeStmt_leaves statement hfirst hstatement]
      · simp only [Option.bind_eq_some_iff, Option.some.injEq] at hrest
        obtain ⟨remaining, hremaining, rfl⟩ := hrest
        simp only [blockLeaves, Bool.or_eq_true]
        exact hleaves.imp (optimizeStmt_leaves statement hfirst)
          (optimizeBlock_leaves rest hremaining)

end

end Optimize

/-! A run of such a block that ends has executed a `return`. -/

namespace Semantics

open Library.Runs (bind_eq_ok pure_eq_ok)

variable {ω : Type}

/-- A loop whose body only ever says to go on or to return. -/
theorem iterate_returns {body : Eval ω (Option Flow)}
    (hbody : ∀ state after, body state ≠ .ok (some .next) after) (fuel : Nat)
    {state after : State ω} : iterate body fuel state ≠ .ok .next after := by
  induction fuel generalizing state with
  | zero =>
      intro hrun
      change EStateM.Result.error _ _ = _ at hrun
      simp at hrun
  | succ fuel ih =>
      intro hrun
      rw [iterate] at hrun
      obtain ⟨round, middle, hround, hrest⟩ := bind_eq_ok.mp hrun
      cases round with
      | none => exact ih hrest
      | some flow =>
          obtain ⟨rfl, rfl⟩ := pure_eq_ok.mp hrest
          exact hbody _ _ hround

theorem again_ne_next (flow : Flow) : flow.again ≠ some .next := by
  cases flow <;> simp [Flow.again]

variable {structs : StructTable} {callee : Callee ω} {fuel : Nat}

mutual

theorem execStmt_leaves {env env' : Env} {state after : State ω} :
    (statement : IrStmt) → statement.leaves = true →
      execStmt structs callee fuel env statement state ≠ .ok (env', .next) after
  | .returnStmt value, _, hrun => by
      rw [execStmt] at hrun
      obtain ⟨result, middle, -, hrest⟩ := bind_eq_ok.mp hrun
      obtain ⟨hflow, -⟩ := pure_eq_ok.mp hrest
      simp at hflow
  | .ifStmt condition thenBlock elseBlock, hleaves, hrun => by
      simp only [IrStmt.leaves, Bool.and_eq_true] at hleaves
      rw [execStmt] at hrun
      obtain ⟨value, middle, -, hrun⟩ := bind_eq_ok.mp hrun
      obtain ⟨test, middle', -, hrun⟩ := bind_eq_ok.mp hrun
      cases test with
      | true =>
          obtain ⟨flow, middle'', hbranch, hrun⟩ := bind_eq_ok.mp hrun
          obtain ⟨hflow, rfl⟩ := pure_eq_ok.mp hrun
          obtain ⟨rfl, rfl⟩ := Prod.mk.inj hflow
          exact execStmts_leaves thenBlock hleaves.1 hbranch
      | false =>
          obtain ⟨flow, middle'', hbranch, hrun⟩ := bind_eq_ok.mp hrun
          obtain ⟨hflow, rfl⟩ := pure_eq_ok.mp hrun
          obtain ⟨rfl, rfl⟩ := Prod.mk.inj hflow
          exact execElse_leaves elseBlock hleaves.2 hbranch
  | .loop body, _, hrun => by
      rw [execStmt] at hrun
      obtain ⟨flow, middle, hloop, hrun⟩ := bind_eq_ok.mp hrun
      obtain ⟨hflow, rfl⟩ := pure_eq_ok.mp hrun
      obtain ⟨rfl, rfl⟩ := Prod.mk.inj hflow
      refine iterate_returns ?_ fuel hloop
      intro before behind hbody
      obtain ⟨round, between, -, hround⟩ := bind_eq_ok.mp hbody
      exact again_ne_next round (pure_eq_ok.mp hround).1
  | .letStmt _ _ _ _, hleaves, _ | .assign _ _, hleaves, _ | .expr _, hleaves, _
  | .zone _ _, hleaves, _ | .whileStmt _ _, hleaves, _ | .forStmt _ _ _ _ _, hleaves, _
  | .free _, hleaves, _ => by
      simp [IrStmt.leaves] at hleaves

theorem execElse_leaves {env : Env} {state after : State ω} :
    (block : Option (List IrStmt)) → elseLeaves block = true →
      execElse structs callee fuel env block state ≠ .ok .next after
  | none, hleaves, _ => by simp [elseLeaves] at hleaves
  | some block, hleaves, hrun => execStmts_leaves block hleaves hrun

theorem execStmts_leaves {env : Env} {state after : State ω} :
    (block : List IrStmt) → blockLeaves block = true →
      execStmts structs callee fuel env block state ≠ .ok .next after
  | [], hleaves, _ => by simp [blockLeaves] at hleaves
  | statement :: rest, hleaves, hrun => by
      rw [execStmts] at hrun
      obtain ⟨⟨env', flow⟩, middle, hfirst, hrun⟩ := bind_eq_ok.mp hrun
      simp only [blockLeaves, Bool.or_eq_true] at hleaves
      cases flow with
      | next =>
          cases hleaves with
          | inl hstatement => exact execStmt_leaves statement hstatement hfirst
          | inr hrest => exact execStmts_leaves rest hrest hrun
      | returned value =>
          obtain ⟨hflow, -⟩ := pure_eq_ok.mp hrun
          simp at hflow

end

end Semantics

/-! The functions of an accepted project. -/

namespace Lower

open Check (Accepted)

theorem lowerFunction_leaves {ctx : Context} {nextTemp : Nat} {function : FunctionDecl}
    {lowered : IrFunction × Nat} (hlowered : lowerFunction ctx nextTemp function = some lowered)
    (hchecked : Check.checkFunction ⟨ctx.project, ctx.self⟩ function = [])
    (htype : lowered.1.returnType ≠ .void) : blockLeaves lowered.1.body = true := by
  simp only [lowerFunction, lowerBody, Option.bind_eq_bind, Option.bind_eq_some_iff,
    Option.pure_def, Option.some.injEq] at hlowered
  obtain ⟨body, hbody, result, ⟨root, -, hresult⟩, rfl⟩ := hlowered
  simp only [Check.checkFunction, hbody, List.append_eq_nil_iff] at hchecked
  have hguaranteed : blockGuaranteesReturn body = true := by
    have hrequired := hchecked.2
    rw [Check.require_eq_nil, Bool.or_eq_true, decide_eq_true_eq] at hrequired
    by_contra hnot
    exact hrequired.elim htype hnot
  exact lowerStatements_leaves body hresult hguaranteed

theorem lowerFunctions_leaves {ctx : Context} {nextTemp : Nat} {functions : List FunctionDecl}
    {lowered : List IrFunction × Nat}
    (hlowered : lowerFunctions ctx nextTemp functions = some lowered)
    (hchecked : ∀ function ∈ functions, Check.checkFunction ⟨ctx.project, ctx.self⟩ function = []) :
    ∀ function ∈ lowered.1, function.returnType ≠ .void → blockLeaves function.body = true := by
  induction functions generalizing nextTemp lowered with
  | nil =>
      simp only [lowerFunctions, Option.some.injEq] at hlowered
      simp [← hlowered]
  | cons function rest ih =>
      simp only [lowerFunctions, Option.bind_eq_bind, Option.bind_eq_some_iff, Option.pure_def,
        Option.some.injEq] at hlowered
      obtain ⟨first, hfirst, remaining, hremaining, rfl⟩ := hlowered
      intro other hother
      rcases List.mem_cons.mp hother with rfl | hother
      · exact lowerFunction_leaves hfirst (hchecked function (by simp))
      · exact ih hremaining (fun inner hinner => hchecked inner (List.mem_cons_of_mem _ hinner))
          other hother

theorem lowerModules_leaves {project : Project} (haccepted : Accepted project) {nextTemp : Nat}
    {entries : List (Module × ModuleId)} {lowered : List IrModule}
    (hentries : ∀ entry ∈ entries, project.modules[entry.2]? = some entry.1)
    (hlowered : lowerModules project nextTemp entries = some lowered) :
    ∀ module ∈ lowered, ∀ function ∈ module.functions,
      function.returnType ≠ .void → blockLeaves function.body = true := by
  induction entries generalizing nextTemp lowered with
  | nil =>
      simp only [lowerModules, Option.some.injEq] at hlowered
      simp [← hlowered]
  | cons entry rest ih =>
      obtain ⟨module, self⟩ := entry
      have hrest := fun other hother => hentries other (List.mem_cons_of_mem _ hother)
      rw [lowerModules] at hlowered
      split at hlowered
      · exact ih hrest hlowered
      · simp only [Option.bind_eq_bind, Option.bind_eq_some_iff, Option.pure_def,
          Option.some.injEq] at hlowered
        obtain ⟨first, hfirst, remaining, hremaining, rfl⟩ := hlowered
        intro other hother
        rcases List.mem_cons.mp hother with rfl | hother
        · simp only [lowerModule, Option.bind_eq_bind, Option.bind_eq_some_iff,
            Option.pure_def] at hfirst
          obtain ⟨consts, -, hfirst⟩ := hfirst
          split at hfirst
          · simp only [Option.bind_some, Option.some.injEq] at hfirst
            simp [← hfirst]
          · simp only [Option.bind_eq_some_iff, Option.some.injEq] at hfirst
            obtain ⟨functions, hfunctions, rfl⟩ := hfirst
            exact lowerFunctions_leaves hfunctions fun function hfunction =>
              haccepted.checkFunction (hentries (module, self) (by simp)) hfunction
        · exact ih hrest hremaining other hother

theorem lowerProject_leaves {project : Project} (haccepted : Accepted project)
    {program : IrProgram} (hlowered : lowerProject project = some program) :
    ∀ module ∈ program.modules, ∀ function ∈ module.functions,
      function.returnType ≠ .void → blockLeaves function.body = true := by
  simp only [lowerProject, Option.map_eq_some_iff] at hlowered
  obtain ⟨modules, hmodules, rfl⟩ := hlowered
  exact lowerModules_leaves haccepted
    (fun entry hentry => List.mem_zipIdx_iff_getElem?.mp hentry) hmodules

end Lower

namespace Optimize

open Library (mem_of_mapM)

theorem optimizeProgram_leaves {program optimized : IrProgram}
    (hoptimized : optimizeProgram program = some optimized)
    (hleaves : ∀ module ∈ program.modules, ∀ function ∈ module.functions,
      function.returnType ≠ .void → blockLeaves function.body = true) :
    ∀ module ∈ optimized.modules, ∀ function ∈ module.functions,
      function.returnType ≠ .void → blockLeaves function.body = true := by
  simp only [optimizeProgram, Option.bind_eq_bind, Option.bind_eq_some_iff, Option.pure_def,
    Option.some.injEq] at hoptimized
  obtain ⟨modules, hmodules, rfl⟩ := hoptimized
  intro folded hfolded function hfunction htype
  obtain ⟨module, hmodule, hoptimized⟩ := mem_of_mapM hmodules hfolded
  simp only [optimizeModule, Option.bind_eq_bind, Option.bind_eq_some_iff, Option.pure_def,
    Option.some.injEq] at hoptimized
  obtain ⟨consts, -, functions, hfunctions, rfl⟩ := hoptimized
  obtain ⟨original, horiginal, hoptimized⟩ := mem_of_mapM hfunctions hfunction
  simp only [optimizeFunction, Option.bind_eq_bind, Option.bind_eq_some_iff, Option.pure_def,
    Option.some.injEq] at hoptimized
  obtain ⟨body, hbody, rfl⟩ := hoptimized
  exact optimizeBlock_leaves original.body hbody (hleaves module hmodule original horiginal htype)

end Optimize

end Cnegative
