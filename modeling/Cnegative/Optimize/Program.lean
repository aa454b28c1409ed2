import Cnegative.Library.Related
import Cnegative.Lower.Project
import Cnegative.Optimize.Preserves

namespace Cnegative

namespace Optimize

open Semantics
open Library (mapM_isSome forall₂_of_mapM find?_related findSome?_related filter_related)
open Typing (functionTyped programTyped)

variable {ω : Type}

/-! The optimized program calls what the program calls. -/

theorem optimizeFunction_isSome {program : IrProgram} {function : IrFunction}
    (htyped : functionTyped program function = true)
    (hsafe : blockFoldsSafely function.body = true) :
    ∃ folded, optimizeFunction function = some folded := by
  obtain ⟨body, hbody, -⟩ := @optimizeBlock_folded Unit program []
    (fun _ _ _ _ => pure .void) 0 function.returnType _ function.body htyped hsafe
  exact ⟨{ function with body := body }, by simp [optimizeFunction, hbody]⟩

structure SameFunction (function folded : IrFunction) : Prop where
  name_eq : folded.name = function.name
  call_eq : ∀ {ω : Type} (structs : StructTable) (callee : Callee ω) (fuel : Nat)
    (arguments : List Value), callFunction structs callee fuel folded arguments =
      callFunction structs callee fuel function arguments

theorem optimizeFunction_same {program : IrProgram} {function folded : IrFunction}
    (hfold : optimizeFunction function = some folded)
    (htyped : functionTyped program function = true)
    (hsafe : blockFoldsSafely function.body = true) : SameFunction function folded := by
  simp only [optimizeFunction, Option.bind_eq_bind, Option.bind_eq_some_iff, Option.pure_def,
    Option.some.injEq] at hfold
  obtain ⟨body, hbody, rfl⟩ := hfold
  refine ⟨rfl, fun structs callee fuel arguments => ?_⟩
  obtain ⟨folded, hfolded, hexec⟩ := @optimizeBlock_folded _ program structs callee fuel
    function.returnType _ function.body htyped hsafe
  obtain rfl : body = folded := Option.some.inj (hbody.symm.trans hfolded)
  simp only [callFunction, hexec]

structure SameModule (module folded : IrModule) : Prop where
  name_eq : folded.name = module.name
  structs_eq : folded.structs = module.structs
  functions : List.Forall₂ SameFunction module.functions folded.functions

theorem optimizeModule_same {program : IrProgram} {module folded : IrModule}
    (hfold : optimizeModule module = some folded)
    (hfunctions : ∀ function ∈ module.functions,
      functionTyped program function = true ∧ blockFoldsSafely function.body = true) :
    SameModule module folded := by
  simp only [optimizeModule, Option.bind_eq_bind, Option.bind_eq_some_iff, Option.pure_def,
    Option.some.injEq] at hfold
  obtain ⟨consts, -, functions, hmap, rfl⟩ := hfold
  refine ⟨rfl, rfl, forall₂_of_mapM hmap fun function hmem folded hfold => ?_⟩
  exact optimizeFunction_same hfold (hfunctions function hmem).1 (hfunctions function hmem).2

theorem optimizeModule_isSome {program : IrProgram} {module : IrModule}
    (hconsts : ∀ decl ∈ module.consts, Typing.exprTyped program [] decl.initializer = true ∧
      foldsSafely decl.initializer = true)
    (hfunctions : ∀ function ∈ module.functions,
      functionTyped program function = true ∧ blockFoldsSafely function.body = true) :
    ∃ folded, optimizeModule module = some folded := by
  have hconst : ∀ decl ∈ module.consts, ∃ folded, optimizeConst decl = some folded := by
    intro decl hdecl
    obtain ⟨initializer, hinitializer, -⟩ := @optimizeExpr_folded Unit program []
      (fun _ _ _ _ => pure .void) [] decl.initializer (hconsts decl hdecl).1 (hconsts decl hdecl).2
    exact ⟨{ decl with initializer := initializer }, by simp [optimizeConst, hinitializer]⟩
  have hfunction : ∀ function ∈ module.functions,
      ∃ folded, optimizeFunction function = some folded := fun function hmem =>
    optimizeFunction_isSome (hfunctions function hmem).1 (hfunctions function hmem).2
  obtain ⟨consts, hfoldConsts⟩ := mapM_isSome hconst
  obtain ⟨functions, hfoldFunctions⟩ := mapM_isSome hfunction
  exact ⟨{ module with consts := consts, functions := functions }, by
    simp [optimizeModule, hfoldConsts, hfoldFunctions]⟩

theorem program_parts {program : IrProgram} (htyped : programTyped program = true)
    (hsafe : programFoldsSafely program = true) {module : IrModule}
    (hmodule : module ∈ program.modules) :
    (∀ decl ∈ module.consts, Typing.exprTyped program [] decl.initializer = true ∧
      foldsSafely decl.initializer = true) ∧
    ∀ function ∈ module.functions,
      functionTyped program function = true ∧ blockFoldsSafely function.body = true := by
  simp only [programTyped, programFoldsSafely, List.all_eq_true, Bool.and_eq_true,
    decide_eq_true_eq] at htyped hsafe
  obtain ⟨htypedConsts, htypedFunctions⟩ := htyped module hmodule
  obtain ⟨hsafeConsts, hsafeFunctions⟩ := hsafe module hmodule
  exact ⟨fun decl hdecl => ⟨(htypedConsts decl hdecl).1, hsafeConsts decl hdecl⟩,
    fun function hfunction => ⟨htypedFunctions function hfunction,
      hsafeFunctions function hfunction⟩⟩

theorem structTable_eq {program optimized : IrProgram}
    (hmodules : List.Forall₂ SameModule program.modules optimized.modules) :
    optimized.structTable = program.structTable := by
  obtain ⟨modules⟩ := program
  obtain ⟨folded⟩ := optimized
  simp only [IrProgram.structTable] at hmodules ⊢
  induction hmodules with
  | nil => rfl
  | cons hhead _ ih => simp [hhead.name_eq, hhead.structs_eq, ih]

theorem findFunction_same {program optimized : IrProgram}
    (hmodules : List.Forall₂ SameModule program.modules optimized.modules)
    (moduleName functionName : Name) :
    Option.Rel SameFunction (program.findFunction moduleName functionName)
      (optimized.findFunction moduleName functionName) := by
  refine findSome?_related (filter_related hmodules fun module folded hsame => ?_)
    fun module folded hsame => find?_related hsame.functions fun function folded hsame => ?_
  · rw [hsame.name_eq]
  · rw [hsame.name_eq]

theorem runCall_same {program optimized : IrProgram}
    (hmodules : List.Forall₂ SameModule program.modules optimized.modules)
    (runtime : Callee ω) (fuel : Nat) :
    runCall optimized runtime fuel = runCall program runtime fuel := by
  induction fuel with
  | zero => rfl
  | succ fuel ih =>
      funext target moduleName functionName arguments
      have hfind := findFunction_same hmodules moduleName functionName
      cases target with
      | builtin => rfl
      | «local» | module =>
          simp only [runCall, ih, structTable_eq hmodules]
          generalize program.findFunction moduleName functionName = found at hfind ⊢
          generalize optimized.findFunction moduleName functionName = folded at hfind ⊢
          cases hfind with
          | none => rfl
          | some hsame => simp only [Eval.ofOption, pure_bind, hsame.call_eq]

/-- Folding and dropping dead statements change no run of the program. -/
theorem optimizeProgram_preserves {program : IrProgram} (htyped : programTyped program = true)
    (hsafe : programFoldsSafely program = true) :
    ∃ optimized, optimizeProgram program = some optimized ∧
      ∀ {ω : Type} (runtime : Callee ω) (fuel : Nat),
        runCall optimized runtime fuel = runCall program runtime fuel := by
  obtain ⟨modules, hmap⟩ := mapM_isSome fun module hmodule =>
    optimizeModule_isSome (program_parts htyped hsafe hmodule).1
      (program_parts htyped hsafe hmodule).2
  refine ⟨⟨modules⟩, by simp [optimizeProgram, hmap], fun runtime fuel => ?_⟩
  apply runCall_same
  exact forall₂_of_mapM hmap fun module hmodule folded hfold =>
    optimizeModule_same hfold (program_parts htyped hsafe hmodule).2

/-- `let mut a:int[1] = [1]; let s:slice int = (if true { a } else { a })[0..1];
a[0] = 5; return s[0];` -/
def aliasingBody : Block := [
  .letStmt "a" true (.array .int 1) (.arrayLiteral [.int 1] none),
  .letStmt "s" false (.slice .int)
    (.sliceView (.ifExpr (.bool true) (.name "a") (.name "a")) (some (.int 0)) (some (.int 1))),
  .assign (.index (.name "a") (.int 0)) (.int 5),
  .returnStmt (some (.index (.name "s") (.int 0)))]

theorem folded_copy_aliases :
    Check.Accepted (mainProject aliasingBody) ∧
      (Lower.lowerProject (mainProject aliasingBody)).map programTyped = some true ∧
      (Lower.lowerProject (mainProject aliasingBody)).map (mainResult · 2) = some (some 1) ∧
      ((Lower.lowerProject (mainProject aliasingBody)).bind optimizeProgram).map
        (mainResult · 2) = some (some 5) :=
  ⟨by decide +kernel, by decide +kernel, by decide +kernel, by decide +kernel⟩

/-- `return (if 1 < 2 { 2 + 3 } else { 4 / 0 });` -/
def foldingProgram : IrProgram :=
  ⟨[⟨"main", [], [], [⟨false, "main", "main", .int, [], [
    .returnStmt (some (.ifExpr .int
      (.binary .bool .less (.int .int 1) (.int .int 2))
      (.binary .int .add (.int .int 2) (.int .int 3))
      (.binary .int .div (.int .int 4) (.int .int 0))))]⟩]⟩]⟩

theorem foldingProgram_preserved :
    ∃ optimized, optimizeProgram foldingProgram = some optimized ∧
      ∀ {ω : Type} (runtime : Callee ω) (fuel : Nat),
        runCall optimized runtime fuel = runCall foldingProgram runtime fuel :=
  optimizeProgram_preserves (by decide +kernel) (by decide +kernel)

end Optimize

end Cnegative
