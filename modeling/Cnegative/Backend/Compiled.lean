import Cnegative.Backend.Executes
import Cnegative.Backend.Linked
import Cnegative.Optimize.Program

namespace Cnegative

open Library (Code forall₂_of_mapM)

open Library.Runs (bind_eq_ok pure_eq_ok)

open Scalar (Oracle Outside Outcome Exec Store Local Returns called)

open Semantics

open Typing (TypeEnv functionTyped paramTypes programTyped)

open Optimize (optimizeProgram programFoldsSafely optimizeModule_same program_parts runCall_same)

def IrProgram.isCore (fragment : Fragment) (program : IrProgram) : Bool :=
  program.modules.all fun module =>
    module.functions.all fun function => blockCore fragment function.body

theorem IrProgram.blockCore_of_isCore {program : IrProgram} {fragment : Fragment}
    (hcore : program.isCore fragment = true)
    {moduleName functionName : Name} {function : IrFunction}
    (hfunction : program.findFunction moduleName functionName = some function) :
    blockCore fragment function.body = true := by
  obtain ⟨module, hmodule, hmember⟩ := IrProgram.mem_of_findFunction hfunction
  simp only [IrProgram.isCore, List.all_eq_true] at hcore
  exact hcore module hmodule function hmember

namespace Llvm

variable {ω : Type}

/-! From the memory of the IR to the text: a program is optimized and emitted. -/

theorem prefix_dropFrame {frame : List Cell} {state : State ω} (hframe : frame <+: state.cells) :
    frame <+: (state.dropFrame frame.length).cells := by
  apply List.prefix_iff_getElem?.mpr
  intro index hlt
  have hcell := List.prefix_iff_getElem?.mp hframe index hlt
  have hbelow : ¬ frame.length ≤ index := Nat.not_le.mpr hlt
  simp [State.dropFrame, State.kill, List.getElem?_mapIdx, hcell, hbelow]

section

variable {program : IrProgram} {fragment : Fragment} {oracle : Oracle ω} {callee : Callee ω}
  {structs : StructTable} {frame : List Cell}

theorem bindArguments_housed {params : List Param} {arguments : List Value} {joint : Joint}
    {env env' : Env} {types : TypeEnv} {state after : State ω} (hplaced : Placed joint env types)
    (hheld : Housed frame joint state)
    (harguments : List.Forall₂ (fun param value => Value.HasType value param.type) params arguments)
    (hrun : bindArguments env params arguments state = .ok env' after) :
    ∃ joint' : Joint, joint'.store = ((params.zip arguments).map fun entry =>
        (entry.1.name, (⟨entry.2, false⟩ : Local))).reverse ++ joint.store ∧
      Placed joint' env' (params.foldl (fun typeEnv param =>
        typeEnv.define param.name param.type false) types) ∧
      Housed frame joint' after ∧ after.world = state.world := by
  induction harguments generalizing joint env types state with
  | nil =>
      rw [bindArguments] at hrun
      obtain ⟨rfl, rfl⟩ := pure_eq_ok.mp hrun
      exact ⟨joint, rfl, hplaced, hheld, rfl⟩
  | @cons param value params arguments hvalue _ ih =>
      rw [bindArguments] at hrun
      obtain ⟨place, middle, hplace, hrest⟩ := bind_eq_ok.mp hrun
      obtain ⟨rfl, rfl⟩ := allocate_eq_ok hplace
      obtain ⟨joint', hstore, hplaced', hheld', hworld⟩ :=
        ih (hplaced.define param.name ⟨param.type, false, 0, state.cells.length, value⟩)
          (hheld.allocate hvalue param.name false) hrest
      refine ⟨joint', ?_, hplaced', hheld', hworld⟩
      rw [hstore]
      simp [Joint.store]

theorem callFunction_returns (hfollows : Follows program fragment oracle callee) {fuel : Nat}
    {function : IrFunction} {arguments : List Value} {value : Value} {state after : State ω}
    (htyped : functionTyped program function = true)
    (hcore : blockCore fragment function.body = true)
    (harguments : List.Forall₂ (fun param value => Value.HasType value param.type)
      function.parameters arguments)
    (hrun : callFunction structs callee fuel function arguments state = .ok value after) :
    (∃ calls, Returns oracle function arguments ⟨state.world, []⟩ value ⟨after.world, calls⟩) ∧
      state.cells <+: after.cells := by
  obtain ⟨_, _, hget, hrun⟩ := bind_eq_ok.mp hrun
  cases hget
  obtain ⟨env, bound, hbind, hrun⟩ := bind_eq_ok.mp hrun
  obtain ⟨flow, ended, hbody, hrun⟩ := bind_eq_ok.mp hrun
  obtain ⟨result, _, hresult, hrun⟩ := bind_eq_ok.mp hrun
  obtain ⟨_, _, hdrop, hrun⟩ := bind_eq_ok.mp hrun
  cases hdrop
  obtain ⟨rfl, rfl⟩ := pure_eq_ok.mp hrun
  have hplaced : Placed [] (Env.push []) (TypeEnv.push []) :=
    ⟨List.cons_ne_nil _ _, List.cons_ne_nil _ _, rfl, rfl⟩
  have hheld : Housed state.cells [] state :=
    ⟨List.prefix_rfl, by simp, by simp, by simp, List.nodup_nil⟩
  obtain ⟨joint, hstore, hplaced', hheld', hworld⟩ :=
    bindArguments_housed hplaced hheld harguments hbind
  have hstarted : (⟨state.world, []⟩ : Outside ω).world = bound.world := hworld.symm
  obtain ⟨outcome, hexec, hends⟩ := execStmts_executes hfollows function.body hplaced' htyped hcore
    rfl hheld' hstarted hbody
  have hstart : joint.store = Scalar.bindArguments function.parameters arguments := by
    rw [hstore]
    simp [Scalar.bindArguments, Joint.store]
  rw [hstart] at hexec
  cases hends with
  | @next _ outside _ hlast hworld' =>
      obtain ⟨world, calls⟩ := outside
      subst hworld'
      rw [fallOff] at hresult
      by_cases hvoid : function.returnType = .void
      · rw [if_pos hvoid] at hresult
        obtain ⟨rfl, rfl⟩ := pure_eq_ok.mp hresult
        exact ⟨⟨calls, .fallOff hvoid hexec⟩, prefix_dropFrame hlast.frame_prefix⟩
      · rw [if_neg hvoid] at hresult
        exact absurd hresult undefined_ne_ok
  | @returned found outside hframe hworld' =>
      obtain ⟨world, calls⟩ := outside
      subst hworld'
      cases found with
      | none =>
          obtain ⟨rfl, rfl⟩ := pure_eq_ok.mp hresult
          exact ⟨⟨calls, .returned hexec⟩, prefix_dropFrame hframe⟩
      | some found =>
          obtain ⟨rfl, rfl⟩ := pure_eq_ok.mp hresult
          exact ⟨⟨calls, .returned hexec⟩, prefix_dropFrame hframe⟩

/-- The builtins that are offered do in the memory what the oracle says, and leave the cells of
their callers alone. -/
def Serves (fragment : Fragment) (oracle : Oracle ω) (runtime : Callee ω) : Prop :=
  ∀ ⦃type moduleName functionName types arguments state value after⦄,
    fragment.offers type moduleName functionName types = true →
    List.Forall₂ Value.HasType arguments types →
    runtime .builtin moduleName functionName arguments state = .ok value after →
      ∃ symbol passed,
        called type .builtin moduleName functionName arguments = some (.runtime symbol, passed) ∧
        oracle.call type (.runtime symbol) passed state.world = some (value, after.world) ∧
        state.cells <+: after.cells

theorem linkedText_runtime (context : EmitContext) (oracle : Oracle ω) (depth : Nat)
    (type : TypeRef) (symbol : String) (passed : List Value) (world : ω) :
    (linkedText context program oracle depth).call type (.runtime symbol) passed world =
      oracle.call type (.runtime symbol) passed world := by
  cases depth <;> rfl

theorem runCall_follows {context : EmitContext} {runtime : Callee ω}
    (hemitted : Emitted context program) (hcore : program.isCore fragment = true)
    (hserves : Serves fragment oracle runtime) (fuel : Nat) :
    Follows program fragment (linkedText context program oracle fuel)
      (runCall program runtime fuel) := by
  induction fuel with
  | zero =>
      intro type target moduleName functionName types arguments state value after _ _ _ hrun
      cases hrun
  | succ fuel ih =>
      intro type target moduleName functionName types arguments state value after htyped hoffered
        harguments hrun
      cases target with
      | builtin =>
          obtain ⟨symbol, passed, hcalled, hanswer, hgrow⟩ :=
            hserves (Bool.and_eq_true_iff.mp hoffered).1 harguments hrun
          exact ⟨_, hcalled, (linkedText_runtime context oracle _ _ _ _ _).trans hanswer, hgrow⟩
      | «local» | module =>
          obtain ⟨function, _, hfound, hcall⟩ := bind_eq_ok.mp hrun
          obtain ⟨hfunction, rfl⟩ := ofOption_eq_ok.mp hfound
          simp only [Typing.callTyped, hfunction, Bool.and_eq_true, decide_eq_true_eq] at htyped
          obtain ⟨rfl, rfl⟩ := htyped
          have hpassed : List.Forall₂ (fun param value => Value.HasType value param.type)
              function.parameters arguments :=
            (List.forall₂_map_right_iff.mp harguments).flip
          obtain ⟨code, hemit⟩ := hemitted.emits hfunction
          obtain ⟨⟨calls, hreturns⟩, hgrow⟩ := callFunction_returns ih (hemitted.typed hfunction)
            (IrProgram.blockCore_of_isCore hcore hfunction) hpassed hcall
          obtain ⟨htype, fuel', machine, houtside, hcode⟩ := emitFunction_runs (fun _ => none)
            (hemitted.typed hfunction) hpassed hemit hreturns
          have hruns : TextRuns context program (linkedText context program oracle fuel)
              moduleName functionName arguments state.world (value, after.world) :=
            ⟨function, code, hemitted.findSymbol hfunction, hemit, fuel', machine, hcode, by
              rw [houtside]⟩
          exact ⟨_, rfl, Oracle.link_call htype hruns fun _ hother => textRuns_unique hother hruns,
            hgrow⟩

end

/-- What a call of the source program computes in memory, the text of the optimized program
computes. -/
theorem compiled_program_refines {ω : Type} (context : EmitContext)
    (source program : IrProgram) (fragment : Fragment)
    (oracle : Oracle ω) (runtime : Callee ω) (fuel : Nat) (moduleName functionName : Name)
    (function : IrFunction) (arguments : List Value) (value : Value) (state after : State ω)
    (htyped : programTyped source = true) (hsafe : programFoldsSafely source = true)
    (hfold : optimizeProgram source = some program) (hemitted : Emitted context program)
    (hcore : program.isCore fragment = true) (hserves : Serves fragment oracle runtime)
    (hfunction : program.findFunction moduleName functionName = some function)
    (harguments : List.Forall₂ (fun param value => Value.HasType value param.type)
      function.parameters arguments)
    (hrun : runCall source runtime (fuel + 1) .local moduleName functionName arguments state =
      .ok value after) :
    value.HasType function.returnType ∧ ∃ code, emitFunction context function = some code ∧
      ∃ steps, ∃ machine : Machine ω, machine.outside.world = after.world ∧ ∀ steps' ≥ steps,
        runCode (linkedText context program oracle fuel) arguments code steps'
          (code, ⟨fun _ => none, [], ⟨state.world, []⟩⟩) = some (value, machine) := by
  simp only [optimizeProgram, Option.bind_eq_bind, Option.bind_eq_some_iff, Option.pure_def,
    Option.some.injEq] at hfold
  obtain ⟨modules, hmodules, rfl⟩ := hfold
  have hsame : runCall ⟨modules⟩ runtime (fuel + 1) = runCall source runtime (fuel + 1) :=
    runCall_same (forall₂_of_mapM hmodules fun module hmodule folded hfolded =>
      optimizeModule_same hfolded (program_parts htyped hsafe hmodule).2) runtime (fuel + 1)
  rw [← hsame] at hrun
  obtain ⟨found, _, hfound, hcall⟩ := bind_eq_ok.mp hrun
  obtain ⟨hfoundFunction, rfl⟩ := ofOption_eq_ok.mp hfound
  obtain rfl : function = found := Option.some.inj (hfunction.symm.trans hfoundFunction)
  obtain ⟨code, hemit⟩ := hemitted.emits hfunction
  have hfollows := runCall_follows hemitted hcore hserves fuel
  obtain ⟨⟨calls, hreturns⟩, -⟩ := callFunction_returns hfollows (hemitted.typed hfunction)
    (IrProgram.blockCore_of_isCore hcore hfunction) harguments hcall
  obtain ⟨htype, steps, machine, houtside, hcode⟩ := emitFunction_runs (fun _ => none)
    (hemitted.typed hfunction) harguments hemit hreturns
  exact ⟨htype, code, hemit, steps, machine, by rw [houtside], fun steps' hle =>
    runCode_le hle hcode⟩

def printingMain : IrFunction :=
  ⟨false, "main", "main", .int, [], [
    .letStmt "n" true .int (.binary .int .add (.int .int 2) (.int .int 3)),
    .forStmt "i" .int (.int .int 0) (.int .int 2) [
      .assign (.local .int "n") (.call .int .local "main" "double" [.local .int "n"])],
    .expr (.call .void .builtin "" "println" [.local .int "n"]),
    .returnStmt (some (.local .int "n"))]⟩

def foldedMain : IrFunction :=
  ⟨false, "main", "main", .int, [],
    .letStmt "n" true .int (.int .int 5) :: printingMain.body.tail⟩

/-- Doubles `2 + 3` twice in a loop and prints the result. -/
def printingProgram : IrProgram := ⟨[⟨"main", [], [], [doubleFunction, printingMain]⟩]⟩

def foldedProgram : IrProgram := ⟨[⟨"main", [], [], [doubleFunction, foldedMain]⟩]⟩

/-- The core with `println` of numbers. -/
def printingFragment : Fragment where
  offers type moduleName functionName arguments :=
    type = .void && moduleName = "" && functionName = "println" && arguments = [.int]
  operands := operandsTotal

def printer : Callee (List (BitVec 64)) := fun _ _ _ arguments =>
  match arguments with
  | [.int number] => do
      modify fun state => { state with world := number :: state.world }
      return .void
  | _ => Eval.undefined

def printOracle : Oracle (List (BitVec 64)) where
  call type symbol arguments world :=
    match arguments with
    | [.int number] =>
        if type = .void ∧ symbol = .runtime "@cn_print_int" then some (.void, number :: world)
        else none
    | _ => none
  hasType := by
    intro type symbol arguments world value world' hcall
    split at hcall
    · split at hcall
      · rename_i htype
        cases hcall
        exact htype.1 ▸ .void
      · cases hcall
    · cases hcall

theorem println_serves : Serves printingFragment printOracle printer := by
  intro type moduleName functionName types arguments state value after hoffers harguments hrun
  simp only [printingFragment, Bool.and_eq_true, decide_eq_true_eq] at hoffers
  obtain ⟨⟨⟨rfl, rfl⟩, rfl⟩, rfl⟩ := hoffers
  cases harguments with
  | cons hnumber hrest =>
      cases hrest
      cases hnumber with
      | int number =>
          cases hrun
          exact ⟨"@cn_print_int", [.int number], rfl, rfl, List.prefix_rfl⟩

theorem foldedProgram_cases {moduleName functionName : Name} {function : IrFunction}
    (hfunction : foldedProgram.findFunction moduleName functionName = some function) :
    function = doubleFunction ∨ function = foldedMain := by
  obtain ⟨module, hmodule, hmember⟩ := IrProgram.mem_of_findFunction hfunction
  obtain rfl : module = ⟨"main", [], [], [doubleFunction, foldedMain]⟩ := by
    simpa [foldedProgram] using hmodule
  simpa using hmember

theorem foldedProgram_emitted : Emitted ⟨[], []⟩ foldedProgram where
  distinct := by decide +kernel
  housed := by decide
  typed hfunction := by
    rcases foldedProgram_cases hfunction with rfl | rfl <;> decide +kernel
  emits hfunction := by
    apply Option.isSome_iff_exists.mp
    rcases foldedProgram_cases hfunction with rfl | rfl <;> decide +kernel

theorem printing_text_prints_20 :
    ∃ code, emitFunction ⟨[], []⟩ foldedMain = some code ∧
      ∃ steps, ∃ machine : Machine (List (BitVec 64)), machine.outside.world = [20] ∧
        runCode (linkedText ⟨[], []⟩ foldedProgram printOracle 3) [] code steps
          (code, ⟨fun _ => none, [], ⟨[], []⟩⟩) = some (.int 20, machine) := by
  have hfunction : foldedProgram.findFunction "main" "main" = some foldedMain := by
    simp [foldedProgram, IrProgram.findFunction, doubleFunction, foldedMain]
  have hfold : optimizeProgram printingProgram = some foldedProgram := rfl
  have hrun : ∃ after : State (List (BitVec 64)), after.world = [20] ∧
      runCall printingProgram printer 4 .local "main" "main" [] ⟨[], [], [], []⟩ =
        .ok (.int 20) after := ⟨_, rfl, rfl⟩
  obtain ⟨after, hworld, hrun⟩ := hrun
  obtain ⟨-, code, hemit, steps, machine, hprinted, hcode⟩ := compiled_program_refines ⟨[], []⟩
    printingProgram foldedProgram printingFragment printOracle printer 3 "main" "main" foldedMain []
    (.int 20) ⟨[], [], [], []⟩ after (by decide +kernel) (by decide +kernel) hfold
    foldedProgram_emitted (by decide +kernel) println_serves hfunction .nil hrun
  exact ⟨code, hemit, steps, machine, hprinted.trans hworld, hcode steps (Nat.le_refl steps)⟩

end Llvm

end Cnegative
