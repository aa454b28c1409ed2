import Cnegative.Backend.Refines
import Cnegative.Backend.Symbol
import Cnegative.Semantics.Stmt

namespace Cnegative

open Library (Line Code Chain Frame)

open Scalar (Oracle Outside Returns)

open Typing (functionTyped)

theorem IrProgram.home_of_findFunction {program : IrProgram} {moduleName functionName : Name}
    {function : IrFunction}
    (hfunction : program.findFunction moduleName functionName = some function) :
    ∃ module ∈ program.modules, module.name = moduleName ∧ function ∈ module.functions ∧
      function.name = functionName := by
  obtain ⟨module, hmodule, hfound⟩ := List.exists_of_findSome?_eq_some hfunction
  obtain ⟨hmem, hname⟩ := List.mem_filter.mp hmodule
  have hfunctionName := List.find?_some hfound
  exact ⟨module, hmem, beq_iff_eq.mp hname, List.mem_of_find?_eq_some hfound,
    beq_iff_eq.mp hfunctionName⟩

theorem IrProgram.mem_of_findFunction {program : IrProgram} {moduleName functionName : Name}
    {function : IrFunction}
    (hfunction : program.findFunction moduleName functionName = some function) :
    ∃ module ∈ program.modules, function ∈ module.functions :=
  let ⟨module, hmodule, _, hmem, _⟩ := home_of_findFunction hfunction
  ⟨module, hmodule, hmem⟩

/-- The symbol that `cn_llvm_emit_function` defines. -/
def IrFunction.symbol (function : IrFunction) : Text :=
  Backend.emitFunctionSymbol function.moduleName.text function.name.text

def IrProgram.functions (program : IrProgram) : List IrFunction :=
  program.modules.flatMap IrModule.functions

def IrProgram.findSymbol (program : IrProgram) (symbol : Text) : Option IrFunction :=
  program.functions.find? fun function => function.symbol == symbol

theorem IrProgram.findSymbol_eq_some {program : IrProgram} {function : IrFunction}
    (hdistinct : (program.functions.map IrFunction.symbol).Nodup)
    (hfunction : function ∈ program.functions) :
    program.findSymbol function.symbol = some function := by
  obtain ⟨found, hfound⟩ : ∃ found, program.findSymbol function.symbol = some found :=
    Option.isSome_iff_exists.mp
      (List.find?_isSome.mpr ⟨function, hfunction, beq_self_eq_true function.symbol⟩)
  have hsymbol : found.symbol = function.symbol := by
    simpa using List.find?_some hfound
  have hsame : found = function :=
    List.inj_on_of_nodup_map hdistinct (List.mem_of_find?_eq_some hfound) hfunction hsymbol
  rw [hfound, hsame]

namespace Scalar

variable {ω : Type}

def Oracle.Below (oracle oracle' : Oracle ω) : Prop :=
  ∀ ⦃type symbol arguments world answer⦄, oracle.call type symbol arguments world = some answer →
    oracle'.call type symbol arguments world = some answer

open Classical in
/-- Calls of functions are what `runs` says, and calls of the runtime stay as they are. -/
noncomputable def Oracle.link (runtime : Oracle ω)
    (runs : Name → Name → List Value → ω → Value × ω → Prop) : Oracle ω where
  call type symbol arguments world :=
    match symbol with
    | .runtime name => runtime.call type (.runtime name) arguments world
    | .function moduleName functionName =>
        if hruns : ∃ answer, answer.1.HasType type ∧
            runs moduleName functionName arguments world answer then some hruns.choose
        else none
  hasType := by
    intro type symbol arguments world value world' hcall
    cases symbol with
    | runtime name => exact runtime.hasType hcall
    | function moduleName functionName =>
        simp only at hcall
        split at hcall
        · rename_i hruns
          have htype := hruns.choose_spec.1
          rw [Option.some.inj hcall] at htype
          exact htype
        · cases hcall

theorem Oracle.link_below {runtime : Oracle ω}
    {runs runs' : Name → Name → List Value → ω → Value × ω → Prop}
    (hruns : ∀ {moduleName functionName arguments world answer},
      runs moduleName functionName arguments world answer →
        runs' moduleName functionName arguments world answer)
    (hunique : ∀ {moduleName functionName arguments world answer answer'},
      runs' moduleName functionName arguments world answer →
        runs' moduleName functionName arguments world answer' → answer = answer') :
    (runtime.link runs).Below (runtime.link runs') := by
  intro type symbol arguments world answer hcall
  cases symbol with
  | runtime name => exact hcall
  | function moduleName functionName =>
      simp only [Oracle.link] at hcall ⊢
      split at hcall
      · rename_i hfound
        obtain ⟨htype, hchosen⟩ := hfound.choose_spec
        have hfound' : ∃ answer, answer.1.HasType type ∧
            runs' moduleName functionName arguments world answer :=
          ⟨_, htype, hruns hchosen⟩
        rw [dif_pos hfound', Option.some.injEq]
        rw [Option.some.injEq] at hcall
        rw [← hcall]
        exact hunique hfound'.choose_spec.2 (hruns hchosen)
      · cases hcall

theorem Oracle.link_call {runtime : Oracle ω}
    {runs : Name → Name → List Value → ω → Value × ω → Prop} {type : TypeRef}
    {moduleName functionName : Name} {arguments : List Value} {world : ω} {answer : Value × ω}
    (htype : answer.1.HasType type)
    (hruns : runs moduleName functionName arguments world answer)
    (hunique : ∀ answer', runs moduleName functionName arguments world answer' → answer' = answer) :
    (runtime.link runs).call type (.function moduleName functionName) arguments world =
      some answer := by
  have hfound : ∃ answer, answer.1.HasType type ∧
      runs moduleName functionName arguments world answer := ⟨answer, htype, hruns⟩
  simp only [Oracle.link, dif_pos hfound, Option.some.injEq]
  exact hunique _ hfound.choose_spec.2

/-- The function of the program runs to its end, with `oracle` for what it calls. -/
def Runs (program : IrProgram) (oracle : Oracle ω) (moduleName functionName : Name)
    (arguments : List Value) (world : ω) (answer : Value × ω) : Prop :=
  ∃ function, program.findFunction moduleName functionName = some function ∧
    List.Forall₂ (fun param value => Value.HasType value param.type) function.parameters arguments ∧
    ∃ calls, Returns oracle function arguments ⟨world, []⟩ answer.1 ⟨answer.2, calls⟩

/-- The functions of the program, with calls of each other nested less than `depth` deep. -/
noncomputable def linked (program : IrProgram) (runtime : Oracle ω) : Nat → Oracle ω
  | 0 => runtime.link fun _ _ _ _ _ => False
  | depth + 1 => runtime.link (Runs program (linked program runtime depth))

end Scalar

namespace Llvm

variable {ω : Type} {oracle oracle' : Oracle ω} {arguments : List Value} {code : Code Inst}

/-! The texts of all functions together. -/

theorem execute_below (hbelow : oracle.Below oracle') {machine after : Machine ω} {inst : Inst}
    (hexecute : execute oracle arguments machine inst = some after) :
    execute oracle' arguments machine inst = some after := by
  cases inst with
  | call result type symbol operands =>
      simp only [execute, Oracle.answer, Option.bind_eq_bind, Option.bind_eq_some_iff,
        Option.map_eq_some_iff] at hexecute ⊢
      obtain ⟨values, hvalues, answered, ⟨answer, hanswer, hlogged⟩, hafter⟩ := hexecute
      exact ⟨values, hvalues, answered, ⟨answer, hbelow hanswer, hlogged⟩, hafter⟩
  | _ => exact hexecute

theorem step_below (hbelow : oracle.Below oracle') {config after : Config ω}
    (hstep : step oracle arguments code config = some after) :
    step oracle' arguments code config = some after := by
  obtain ⟨position, machine⟩ := config
  cases position with
  | nil => cases hstep
  | cons line rest =>
      cases line with
      | label id => cases hstep
      | inst inst =>
          cases hopen : inst.isTerminator with
          | false =>
              rw [step_inst hopen] at hstep ⊢
              obtain ⟨machine', hexecute, hafter⟩ := Option.map_eq_some_iff.mp hstep
              exact Option.map_eq_some_iff.mpr ⟨machine', execute_below hbelow hexecute, hafter⟩
          | true => cases inst <;> first | exact hstep | cases hopen

theorem runCode_below (hbelow : oracle.Below oracle') {fuel : Nat} {config : Config ω}
    {result : Value × Machine ω}
    (hrun : runCode oracle arguments code fuel config = some result) :
    runCode oracle' arguments code fuel config = some result := by
  induction fuel generalizing config with
  | zero => cases hrun
  | succ fuel ih =>
      rw [runCode] at hrun ⊢
      cases hreturned : returned? config with
      | some value =>
          rw [hreturned] at hrun
          exact hrun
      | none =>
          rw [hreturned] at hrun
          obtain ⟨middle, hstep, hrest⟩ := Option.bind_eq_some_iff.mp hrun
          exact Option.bind_eq_some_iff.mpr ⟨middle, step_below hbelow hstep, ih hrest⟩

theorem runCode_unique {fuel fuel' : Nat} {config : Config ω} {result result' : Value × Machine ω}
    (hrun : runCode oracle arguments code fuel config = some result)
    (hrun' : runCode oracle arguments code fuel' config = some result') : result = result' := by
  have hlong := runCode_le (Nat.le_max_left fuel fuel') hrun
  rw [runCode_le (Nat.le_max_right fuel fuel') hrun', Option.some.injEq] at hlong
  exact hlong.symm

/-- The text under the symbol of the call runs to a `ret`, with `oracle` for what it calls. -/
def TextRuns (context : EmitContext) (program : IrProgram) (oracle : Oracle ω)
    (moduleName functionName : Name) (arguments : List Value) (world : ω) (answer : Value × ω) :
    Prop :=
  ∃ function code,
    program.findSymbol (Backend.emitFunctionSymbol moduleName.text functionName.text) =
      some function ∧
    emitFunction context function = some code ∧ ∃ fuel machine,
      runCode oracle arguments code fuel (code, ⟨fun _ => none, [], ⟨world, []⟩⟩) =
        some (answer.1, machine) ∧ machine.outside.world = answer.2

theorem textRuns_unique {context : EmitContext} {program : IrProgram}
    {moduleName functionName : Name} {world : ω} {answer answer' : Value × ω}
    (hruns : TextRuns context program oracle moduleName functionName arguments world answer)
    (hruns' : TextRuns context program oracle moduleName functionName arguments world answer') :
    answer = answer' := by
  obtain ⟨function, code, hfunction, hemit, fuel, machine, hrun, hworld⟩ := hruns
  obtain ⟨function', code', hfunction', hemit', fuel', machine', hrun', hworld'⟩ := hruns'
  obtain rfl : function = function' := Option.some.inj (hfunction.symm.trans hfunction')
  obtain rfl : code = code' := Option.some.inj (hemit.symm.trans hemit')
  have hsame := runCode_unique hrun hrun'
  rw [Prod.mk.injEq] at hsame
  exact Prod.ext hsame.1 (hworld.symm.trans ((congrArg (fun machine => machine.outside.world)
    hsame.2).trans hworld'))

/-- The texts of the functions, with calls of each other nested less than `depth` deep. -/
noncomputable def linkedText (context : EmitContext) (program : IrProgram) (runtime : Oracle ω) :
    Nat → Oracle ω
  | 0 => runtime.link fun _ _ _ _ _ => False
  | depth + 1 => runtime.link (TextRuns context program (linkedText context program runtime depth))

/-- Every function of the program is typed and has a text, and no symbol is defined twice, which
LLVM refuses. -/
structure Emitted (context : EmitContext) (program : IrProgram) : Prop where
  distinct : (program.functions.map IrFunction.symbol).Nodup
  housed : ∀ module ∈ program.modules, ∀ function ∈ module.functions,
    function.moduleName = module.name
  typed : ∀ {moduleName functionName function},
    program.findFunction moduleName functionName = some function →
      functionTyped program function = true
  emits : ∀ {moduleName functionName function},
    program.findFunction moduleName functionName = some function →
      ∃ code, emitFunction context function = some code

theorem Emitted.findSymbol {context : EmitContext} {program : IrProgram}
    (hemitted : Emitted context program) {moduleName functionName : Name} {function : IrFunction}
    (hfunction : program.findFunction moduleName functionName = some function) :
    program.findSymbol (Backend.emitFunctionSymbol moduleName.text functionName.text) =
      some function := by
  obtain ⟨module, hmodule, rfl, hmem, rfl⟩ := IrProgram.home_of_findFunction hfunction
  rw [← hemitted.housed module hmodule function hmem]
  exact IrProgram.findSymbol_eq_some hemitted.distinct
    (List.mem_flatMap.mpr ⟨module, hmodule, hmem⟩)

theorem linked_below {context : EmitContext} {program : IrProgram} {runtime : Oracle ω}
    (hemitted : Emitted context program) (depth : Nat) :
    (Scalar.linked program runtime depth).Below (linkedText context program runtime depth) := by
  induction depth with
  | zero => exact fun _ _ _ _ _ hcall => hcall
  | succ depth ih =>
      refine Oracle.link_below (fun hruns => ?_) textRuns_unique
      obtain ⟨function, hfunction, harguments, calls, hreturns⟩ := hruns
      obtain ⟨code, hemit⟩ := hemitted.emits hfunction
      obtain ⟨-, fuel, machine, houtside, hrun⟩ := emitFunction_runs (fun _ => none)
        (hemitted.typed hfunction) harguments hemit hreturns
      exact ⟨function, code, hemitted.findSymbol hfunction, hemit, fuel, machine,
        runCode_below ih hrun, by rw [houtside]⟩

/-- A program of core functions that call each other, and themselves: linking their texts gives
what the program means. -/
theorem linked_text_refines {ω : Type} (context : EmitContext) (program : IrProgram)
    (runtime : Oracle ω) (depth : Nat) (moduleName functionName : Name) (function : IrFunction)
    (arguments : List Value) (outside outside' : Outside ω) (value : Value) (code : Code Inst)
    (hemitted : Emitted context program)
    (hfunction : program.findFunction moduleName functionName = some function)
    (harguments : List.Forall₂ (fun param value => Value.HasType value param.type)
      function.parameters arguments)
    (hemit : emitFunction context function = some code)
    (hreturns : Returns (Scalar.linked program runtime depth) function arguments outside value
      outside') :
    ∃ fuel, ∃ machine : Machine ω, machine.outside = outside' ∧ ∀ fuel' ≥ fuel,
      runCode (linkedText context program runtime depth) arguments code fuel'
        (code, ⟨fun _ => none, [], outside⟩) = some (value, machine) := by
  obtain ⟨-, fuel, machine, houtside, hrun⟩ := emitFunction_runs (fun _ => none)
    (hemitted.typed hfunction) harguments hemit hreturns
  exact ⟨fuel, machine, houtside, fun fuel' hle =>
    runCode_le hle (runCode_below (linked_below hemitted depth) hrun)⟩

def doubleFunction : IrFunction :=
  ⟨false, "main", "double", .int, [⟨"n", .int⟩],
    [.returnStmt (some (.binary .int .add (.local .int "n") (.local .int "n")))]⟩

def callingFunction : IrFunction :=
  ⟨false, "main", "main", .int, [],
    [.returnStmt (some (.call .int .local "main" "double" [.int .int 21]))]⟩

def callingProgram : IrProgram := ⟨[⟨"main", [], [], [doubleFunction, callingFunction]⟩]⟩

theorem callingProgram_cases {moduleName functionName : Name} {function : IrFunction}
    (hfunction : callingProgram.findFunction moduleName functionName = some function) :
    function = doubleFunction ∨ function = callingFunction := by
  obtain ⟨module, hmodule, hmember⟩ := IrProgram.mem_of_findFunction hfunction
  obtain rfl : module = ⟨"main", [], [], [doubleFunction, callingFunction]⟩ := by
    simpa [callingProgram] using hmodule
  simpa using hmember

theorem callingProgram_emitted : Emitted ⟨[], []⟩ callingProgram where
  distinct := by decide +kernel
  housed := by decide
  typed hfunction := by
    rcases callingProgram_cases hfunction with rfl | rfl <;> decide +kernel
  emits hfunction := by
    apply Option.isSome_iff_exists.mp
    rcases callingProgram_cases hfunction with rfl | rfl <;> decide +kernel

theorem findFunction_double :
    callingProgram.findFunction "main" "double" = some doubleFunction := by
  simp [callingProgram, IrProgram.findFunction, doubleFunction]

theorem double_runs_unique {oracle : Oracle Unit} {answer : Value × Unit}
    (hruns : Scalar.Runs callingProgram oracle "main" "double" [.int 21] () answer) :
    answer = (.int 42, ()) := by
  obtain ⟨value, world⟩ := answer
  obtain ⟨function, hfunction, -, calls, hreturns⟩ := hruns
  rw [findFunction_double, Option.some.injEq] at hfunction
  subst hfunction
  have hbody : doubleFunction.body =
    [.returnStmt (some (.binary .int .add (.local .int "n") (.local .int "n")))] := rfl
  cases hreturns with
  | fallOff hvoid => cases hvoid
  | returned hexec =>
      rw [hbody] at hexec
      cases hexec with
      | next hstatement => cases hstatement
      | leave hstatement =>
          cases hstatement with
          | returnValue heval =>
              cases heval
              rfl

/-- `main` calls `double(21)`. -/
theorem main_text_returns_42 :
    ∃ code, emitFunction ⟨[], []⟩ callingFunction = some code ∧ ∃ fuel, ∃ machine : Machine Unit,
      runCode (linkedText ⟨[], []⟩ callingProgram zeroOracle 1) [] code fuel
        (code, ⟨fun _ => none, [], ⟨(), []⟩⟩) = some (.int 42, machine) := by
  have hfunction : callingProgram.findFunction "main" "main" = some callingFunction := by
    simp [callingProgram, IrProgram.findFunction, doubleFunction, callingFunction]
  obtain ⟨code, hemit⟩ := callingProgram_emitted.emits hfunction
  have hdouble : Scalar.Runs callingProgram (Scalar.linked callingProgram zeroOracle 0) "main"
      "double" [.int 21] () (.int 42, ()) :=
    ⟨doubleFunction, findFunction_double, .cons (.int 21) .nil, [],
      .returned (.leave (.returnValue rfl))⟩
  have hcall : (Scalar.linked callingProgram zeroOracle 1).call .int (.function "main" "double")
      [.int 21] () = some (.int 42, ()) :=
    Oracle.link_call (.int 42) hdouble fun _ => double_runs_unique
  have hreturns : Returns (Scalar.linked callingProgram zeroOracle 1) callingFunction []
      ⟨(), []⟩ (.int 42) ⟨(), [(.function "main" "double", [.int 21])]⟩ := by
    refine .returned (.leave (.returnValue ?_))
    simp only [Scalar.eval, Scalar.evalAll, Scalar.called, Oracle.answer, Option.bind_some,
      Option.map_some, Value.ofInt]
    rw [hcall]
    rfl
  obtain ⟨fuel, machine, -, hrun⟩ := linked_text_refines ⟨[], []⟩ callingProgram zeroOracle 1 "main"
    "main" callingFunction [] ⟨(), []⟩ _ (.int 42) code callingProgram_emitted hfunction .nil hemit
    hreturns
  exact ⟨code, hemit, fuel, machine, hrun fuel (Nat.le_refl fuel)⟩

end Llvm

end Cnegative
