import Cnegative.Backend.Emission

namespace Cnegative

open Library (Code Chain Frame)

open Typing (TypeEnv stmtTyped stmtsTyped elseTyped scopeAfter assignable functionTyped
  programTyped zonePointer)

namespace Llvm

/-! Statements, blocks and functions. -/

def CollectedIn (context : EmitContext) (block : IrBlock) : Prop :=
  ∀ type bytes, IrBlock.Occurs (.string type bytes) block →
    ∃ globalId, context.strings.findIdx? (fun entry => entry == bytes) = some globalId

namespace CollectedIn

variable {context : EmitContext} {statement : IrStmt}

theorem expression (hcollected : CollectedIn context [statement]) {expression : IrExpr}
    (hexpression : expression ∈ statement.expressions) : Collected context expression :=
  fun type bytes hwithin =>
    hcollected type bytes (.here (List.mem_singleton_self _) hexpression hwithin)

theorem block (hcollected : CollectedIn context [statement]) {block : IrBlock}
    (hblock : block ∈ statement.blocks) : CollectedIn context block :=
  fun type bytes hoccurs =>
    hcollected type bytes (.nested (List.mem_singleton_self _) hblock hoccurs)

theorem mono {block block' : IrBlock} (hcollected : CollectedIn context block')
    (hsubset : block ⊆ block') : CollectedIn context block :=
  fun type bytes hoccurs => hcollected type bytes (hoccurs.mono hsubset)

end CollectedIn

/-- The literals of a function of the program are in the table of its strings. -/
theorem collectedIn_body {program : IrProgram} {module : IrModule} {function : IrFunction}
    (hmodule : module ∈ program.modules) (hfunction : function ∈ module.functions) :
    CollectedIn (emitContext program) function.body := by
  intro type bytes hoccurs
  obtain ⟨globalId, hfind⟩ :=
    findString_of_mem (mem_collectProgramStrings hmodule hfunction hoccurs)
  exact ⟨globalId, Library.Interned.findIdx?_values hfind⟩

theorem isPlace_of_assignable {typeEnv : TypeEnv} {target : IrExpr}
    (hassignable : assignable typeEnv target = true) : target.isPlace = true := by
  cases target with
  | «local» type name => rfl
  | _ => exact hassignable

theorem emitNextIteration_succeeds (type : TypeRef) (iterPtr condLabel : Nat) :
    Succeeds True (emitNextIteration type iterPtr condLabel) fun _ => True := by
  refine .step .isTerminated fun flag _ => ?_
  cases flag with
  | true => exact .pure trivial
  | false =>
      refine .step (.emitLoad _ _) fun _ _ => .step (.result _) fun _ _ => ?_
      exact .step (.write _) fun _ _ => .terminate _

section

variable {program : IrProgram} {returnType : TypeRef} {fuel : Nat}

mutual

/-- A statement leaves a slot for each local that is in scope behind it. -/
theorem statement_succeeds : ∀ (statement : IrStmt) {scope : Scope} {typeEnv : TypeEnv},
    Binds scope typeEnv → stmtTyped program returnType typeEnv statement = true →
      validateStatement program.structTable fuel statement = .ok () →
        CollectedIn (emitContext program) [statement] →
          Succeeds (stmtFits statement = true)
            (emitStatement (emitContext program) scope statement)
            fun after => Binds after (scopeAfter typeEnv statement)
  | .letStmt name isMutable type initializer, scope, typeEnv, hbinds, htyped, hvalid,
      hcollected => by
      simp only [stmtTyped, Bool.and_eq_true] at htyped
      rw [validateStatement, Validation.seq] at hvalid
      have hvalue := expression_lowers hbinds initializer
        ⟨htyped.1, hvalid.2, hcollected.expression List.mem_cons_self⟩
      rw [emitStatement, stmtFits]
      refine .andThen hvalue.value fun _ _ => .step (.result _) fun id _ => ?_
      exact .step (.write _) fun _ _ => .pure (hbinds.define name type isMutable id)
  | .assign target value, scope, typeEnv, hbinds, htyped, hvalid, hcollected => by
      simp only [stmtTyped, Bool.and_eq_true] at htyped
      rw [validateStatement, Validation.seq] at hvalid
      obtain ⟨⟨⟨htarget, hvalue⟩, -⟩, hassignable⟩ := htyped
      have hplace := expression_lowers hbinds target
        ⟨htarget, hvalid.1, hcollected.expression List.mem_cons_self⟩
      have hstored := expression_lowers hbinds value
        ⟨hvalue, hvalid.2, hcollected.expression (by simp [IrStmt.expressions])⟩
      rw [emitStatement, if_pos (isPlace_of_assignable hassignable)]
      refine Succeeds.of_iff (by rw [stmtFits, Bool.and_eq_true]) <|
        .bind hplace.address fun _ _ => .andThen hstored.value fun _ _ => ?_
      exact .step (.write _) fun _ _ => .pure hbinds
  | .returnStmt none, scope, typeEnv, hbinds, htyped, hvalid, hcollected => by
      rw [emitStatement, stmtFits, eq_self]
      exact .step (.terminate _) fun _ _ => .pure hbinds
  | .returnStmt (some value), scope, typeEnv, hbinds, htyped, hvalid, hcollected => by
      simp only [stmtTyped, Bool.and_eq_true] at htyped
      rw [validateStatement] at hvalid
      have hvalue := expression_lowers hbinds value
        ⟨htyped.1, hvalid, hcollected.expression (by simp [IrStmt.expressions])⟩
      rw [emitStatement, stmtFits]
      exact .andThen hvalue.value fun _ _ => .step (.emitRet _) fun _ _ => .pure hbinds
  | .expr value, scope, typeEnv, hbinds, htyped, hvalid, hcollected => by
      rw [Typing.stmtTyped_expr] at htyped
      rw [validateStatement] at hvalid
      have hvalue := expression_lowers hbinds value
        ⟨htyped, hvalid, hcollected.expression List.mem_cons_self⟩
      rw [emitStatement, stmtFits]
      exact .andThen hvalue.value fun _ _ => .pure hbinds
  | .zone zoneName body, scope, typeEnv, hbinds, htyped, hvalid, hcollected => by
      simp only [stmtTyped] at htyped
      rw [validateStatement] at hvalid
      have hbody := fun zonePtr => block_succeeds body
        (hbinds.push.define zoneName zonePointer false zonePtr).push htyped hvalid
        (hcollected.block List.mem_cons_self)
      rw [emitStatement, stmtFits]
      refine .step (.result _) fun zonePtr _ => .step (.emitCall _ _ _) fun _ _ => ?_
      exact .step (.write _) fun _ _ => .andThen (hbody zonePtr) fun _ _ => .pure hbinds
  | .ifStmt condition thenBlock elseBlock, scope, typeEnv, hbinds, htyped, hvalid,
      hcollected => by
      simp only [stmtTyped, Bool.and_eq_true] at htyped
      simp only [validateStatement, Validation.seq] at hvalid
      obtain ⟨⟨⟨hcondition, -⟩, hthen⟩, helse⟩ := htyped
      have htest := expression_lowers hbinds condition
        ⟨hcondition, hvalid.1, hcollected.expression List.mem_cons_self⟩
      have hfirst := block_succeeds thenBlock hbinds.push hthen hvalid.2.1
        (hcollected.block List.mem_cons_self)
      have hsecond := fun elseLabel mergeLabel => else_succeeds elseBlock hbinds helse hvalid.2.2
        (fun block hblock => hcollected.block (by simp [IrStmt.blocks, hblock])) elseLabel
        mergeLabel
      rw [emitStatement]
      refine .step .nextLabel fun _ _ => .step .nextLabel fun elseLabel _ => ?_
      refine .step .nextLabel fun mergeLabel _ => Succeeds.of_iff
        (by rw [stmtFits, Bool.and_eq_true, Bool.and_eq_true]) <|
          .bind htest.value fun _ _ => .step (.terminate _) fun _ _ => ?_
      refine .step (.label _) fun _ _ => .bind hfirst fun _ _ => ?_
      refine .step (.emitBrIfOpen _) fun _ _ => ?_
      refine .andThen (hsecond elseLabel mergeLabel) fun _ _ => ?_
      exact .step (.label _) fun _ _ => .pure hbinds
  | .whileStmt condition body, scope, typeEnv, hbinds, htyped, hvalid, hcollected => by
      simp only [stmtTyped, Bool.and_eq_true] at htyped
      rw [validateStatement, Validation.seq] at hvalid
      have htest := expression_lowers hbinds condition
        ⟨htyped.1.1, hvalid.1, hcollected.expression List.mem_cons_self⟩
      have hbody := block_succeeds body hbinds.push htyped.2 hvalid.2
        (hcollected.block List.mem_cons_self)
      rw [emitStatement]
      refine .step .nextLabel fun _ _ => .step .nextLabel fun _ _ => .step .nextLabel fun _ _ => ?_
      refine .step (.terminate _) fun _ _ => .step (.label _) fun _ _ => Succeeds.of_iff
        (by rw [stmtFits, Bool.and_eq_true]) <|
          .bind htest.value fun _ _ => .step (.terminate _) fun _ _ => ?_
      refine .step (.label _) fun _ _ => .andThen hbody fun _ _ => ?_
      exact .step (.emitBrIfOpen _) fun _ _ => .step (.label _) fun _ _ => .pure hbinds
  | .loop body, scope, typeEnv, hbinds, htyped, hvalid, hcollected => by
      simp only [stmtTyped] at htyped
      rw [validateStatement] at hvalid
      have hbody := block_succeeds body hbinds.push htyped hvalid
        (hcollected.block List.mem_cons_self)
      rw [emitStatement, stmtFits]
      refine .step .nextLabel fun _ _ => .step .nextLabel fun _ _ => ?_
      refine .step (.terminate _) fun _ _ => ?_
      refine .step (.label _) fun _ _ => .andThen hbody fun _ _ => ?_
      exact .step (.emitBrIfOpen _) fun _ _ => .step (.label _) fun _ _ => .pure hbinds
  | .forStmt name type start stop body, scope, typeEnv, hbinds, htyped, hvalid, hcollected => by
      simp only [stmtTyped, Bool.and_eq_true, decide_eq_true_eq] at htyped
      simp only [validateStatement, Validation.seq] at hvalid
      obtain ⟨⟨⟨⟨⟨rfl, hstart⟩, -⟩, hstop⟩, -⟩, hbody⟩ := htyped
      have hfirst := expression_lowers hbinds start
        ⟨hstart, hvalid.2.1, hcollected.expression List.mem_cons_self⟩
      have hlast := expression_lowers hbinds stop
        ⟨hstop, hvalid.2.2.1, hcollected.expression (by simp [IrStmt.expressions])⟩
      have hblock := fun iterPtr => block_succeeds body
        (hbinds.push.define name .int false iterPtr).push hbody hvalid.2.2.2
        (hcollected.block List.mem_cons_self)
      rw [emitStatement]
      refine .step (.result _) fun iterPtr _ => .step (.result _) fun _ _ => ?_
      refine .step .nextLabel fun _ _ => .step .nextLabel fun _ _ => .step .nextLabel fun _ _ => ?_
      refine Succeeds.of_iff (by rw [stmtFits, Bool.and_eq_true, Bool.and_eq_true]) <|
        .bind hfirst.value fun _ _ => .bind hlast.value fun _ _ => ?_
      refine .step (.write _) fun _ _ => .step (.write _) fun _ _ => ?_
      refine .step (.terminate _) fun _ _ => ?_
      refine .step (.label _) fun _ _ => .step (.emitLoad _ _) fun _ _ => ?_
      refine .step (.emitLoad _ _) fun _ _ => .step (.result _) fun _ _ => ?_
      refine .step (.terminate _) fun _ _ => .step (.label _) fun _ _ => ?_
      refine .andThen (hblock iterPtr) fun _ _ => ?_
      refine .step (emitNextIteration_succeeds _ _ _) fun _ _ => ?_
      exact .step (.label _) fun _ _ => .pure hbinds
  | .free value, scope, typeEnv, hbinds, htyped, hvalid, hcollected => by
      simp only [stmtTyped, Bool.and_eq_true] at htyped
      rw [validateStatement] at hvalid
      have hvalue := expression_lowers hbinds value
        ⟨htyped.1, hvalid, hcollected.expression List.mem_cons_self⟩
      rw [emitStatement, stmtFits]
      exact .andThen hvalue.value fun _ _ => .step (.write _) fun _ _ => .pure hbinds

theorem else_succeeds : ∀ (elseBlock : Option (List IrStmt)) {scope : Scope} {typeEnv : TypeEnv},
    Binds scope typeEnv → elseTyped program returnType typeEnv elseBlock = true →
      validateElse program.structTable fuel elseBlock = .ok () →
        (∀ block, elseBlock = some block → CollectedIn (emitContext program) block) →
          ∀ elseLabel mergeLabel, Succeeds (elseFits elseBlock = true)
            (emitElse (emitContext program) scope elseLabel mergeLabel elseBlock) fun _ => True
  | none, scope, typeEnv, hbinds, htyped, hvalid, hcollected, elseLabel, mergeLabel => by
      rw [emitElse]
      exact (Succeeds.pure trivial).of_iff (by simp [elseFits])
  | some block, scope, typeEnv, hbinds, htyped, hvalid, hcollected, elseLabel, mergeLabel => by
      rw [elseTyped] at htyped
      rw [validateElse] at hvalid
      have hblock := block_succeeds block hbinds.push htyped hvalid (hcollected block rfl)
      rw [emitElse, elseFits]
      exact .step (.label _) fun _ _ => .andThen hblock fun _ _ => .emitBrIfOpen _

theorem block_succeeds : ∀ (block : List IrStmt) {scope : Scope} {typeEnv : TypeEnv},
    Binds scope typeEnv → stmtsTyped program returnType typeEnv block = true →
      validateBlock program.structTable fuel block = .ok () →
        CollectedIn (emitContext program) block →
          Succeeds (blockFits block = true) (emitBlock (emitContext program) scope block)
            fun _ => True
  | [], scope, typeEnv, hbinds, htyped, hvalid, hcollected => by
      rw [emitBlock]
      exact (Succeeds.pure trivial).of_iff (by simp [blockFits])
  | statement :: rest, scope, typeEnv, hbinds, htyped, hvalid, hcollected => by
      rw [Typing.stmtsTyped_cons, Bool.and_eq_true] at htyped
      rw [validateBlock, Validation.seq] at hvalid
      have hfirst := statement_succeeds statement hbinds htyped.1 hvalid.1
        (hcollected.mono (by simp))
      rw [emitBlock]
      refine .step .beginUnreachableBlockIfNeeded fun _ _ => Succeeds.of_iff
        (by rw [blockFits, Bool.and_eq_true]) <| .bind hfirst fun after hafter => ?_
      exact block_succeeds rest hafter htyped.2 hvalid.2
        (hcollected.mono (List.subset_cons_self _ _))

end

end

theorem emitParameters_succeeds {params : List Param} {scope : Scope} {typeEnv : TypeEnv}
    (hbinds : Binds scope typeEnv) (index : Nat) :
    Succeeds True (emitParameters scope index params) fun after => Binds after
      (params.foldl (fun typeEnv param => typeEnv.define param.name param.type false) typeEnv) := by
  induction params generalizing scope typeEnv index with
  | nil => exact .pure hbinds
  | cons param rest ih =>
      refine .step (.result _) fun id _ => .step (.write _) fun _ _ => ?_
      exact ih (hbinds.define param.name param.type false id) (index + 1)

theorem function_succeeds {program : IrProgram} {module : IrModule} {function : IrFunction}
    {fuel : Nat} (hmodule : module ∈ program.modules) (hfunction : function ∈ module.functions)
    (htyped : functionTyped program function = true)
    (hvalid : validateFunction program.structTable fuel function = .ok ()) :
    Succeeds (blockFits function.body = true) (emitBody (emitContext program) function)
      fun _ => True := by
  have hempty : Binds (Scope.push []) (TypeEnv.push []) := by
    refine ⟨List.cons_ne_nil _ _, fun name type htype => ?_⟩
    cases htype
  simp only [validateFunction, Validation.seq] at hvalid
  refine .step (emitParameters_succeeds hempty 0) fun scope hscope => ?_
  refine .andThen (block_succeeds function.body hscope htyped hvalid.2.2
    (collectedIn_body hmodule hfunction)) fun _ _ => .step .isTerminated fun flag _ => ?_
  cases flag with
  | true => exact .pure trivial
  | false =>
      by_cases hvoid : function.returnType = .void
      · simp only [hvoid]
        exact .terminate _
      · simp only [hvoid]
        exact .terminate _

/-- Behind the validation the emission refuses the calls with more than 32 arguments and the
literals without members, and nothing else. -/
theorem emission_completes_iff {program : IrProgram} {fuel : Nat}
    (htyped : programTyped program = true) (hvalid : validateProgram fuel program = .ok ())
    {module : IrModule} (hmodule : module ∈ program.modules)
    {function : IrFunction} (hfunction : function ∈ module.functions) :
    (emitFunction (emitContext program) function).isSome = true ↔
      blockFits function.body = true := by
  simp only [programTyped, List.all_eq_true, Bool.and_eq_true] at htyped
  rw [validateProgram, Validation.forM] at hvalid
  have hmoduleValid := hvalid module hmodule
  rw [validateModule, Validation.seq, Validation.forM, Validation.forM] at hmoduleValid
  have hbody := function_succeeds hmodule hfunction ((htyped module hmodule).2 function hfunction)
    (hmoduleValid.2 function hfunction)
  unfold emitFunction
  rw [Option.isSome_map]
  constructor
  · intro hsome
    by_contra hfits
    rw [(hbody _).2 hfits] at hsome
    cases hsome
  · intro hfits
    obtain ⟨done, code, after, hrun, -⟩ := (hbody ⟨0, 0, false⟩).1 hfits
    rw [hrun]
    rfl

/-- `let u = Unit {};` for a struct without fields. -/
def emptyLiteralFunction : IrFunction where
  isPublic := true
  moduleName := "main"
  name := "main"
  returnType := .int
  parameters := []
  body := [
    .letStmt "u" false (.named "main" "Unit")
      (.structLiteral (.named "main" "Unit") "main" "Unit" []),
    .returnStmt (some (.int .int 0))]

def emptyLiteralProgram : IrProgram where
  modules := [{
    name := "main"
    consts := []
    structs := [{ isPublic := true, moduleName := "main", name := "Unit", fields := [] }]
    functions := [emptyLiteralFunction] }]

theorem emptyLiteral_not_emitted :
    (emitFunction (emitContext emptyLiteralProgram) emptyLiteralFunction).isSome = false := by
  have hvalid : validateProgram 1 emptyLiteralProgram = .ok () := by decide +kernel
  have hiff := emission_completes_iff (by decide +kernel) hvalid List.mem_cons_self
    (List.mem_cons_self : emptyLiteralFunction ∈ [emptyLiteralFunction])
  have hfits : blockFits emptyLiteralFunction.body = false := by decide +kernel
  rw [hfits] at hiff
  simpa using hiff

end Llvm

end Cnegative
