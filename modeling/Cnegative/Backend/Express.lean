import Cnegative.Backend.Compute
import Cnegative.Backend.WellFormed

namespace Cnegative

open Library (Line Code Chain Frame)

open Scalar (Oracle Outside Store Local eval evalAll applyUnary applyBinary called printed)

open Typing (TypeEnv LocalType exprTyped itemsTyped unaryTyped binaryTyped)

namespace Llvm

variable {ω : Type} {oracle : Oracle ω} {arguments : List Value} {whole : Code Inst}

/-! Calls. -/

def HoldsAll (machine : Machine ω) (bound : Nat) (values : List LlvmValue) (founds : List Value) :
    Prop :=
  List.Forall₂ (fun value found => ∃ type, Holds machine bound value found type) values founds

namespace HoldsAll

variable {machine machine' : Machine ω} {bound bound' : Nat} {values : List LlvmValue}
  {founds : List Value}

theorem operands (hall : HoldsAll machine bound values founds) :
    values.mapM machine.operand = some founds := by
  induction hall with
  | nil => rfl
  | cons hfirst _ ih =>
      obtain ⟨type, hholds⟩ := hfirst
      simp [List.mapM_cons, hholds.operand, ih]

theorem take (hall : HoldsAll machine bound values founds) (count : Nat) :
    HoldsAll machine bound (values.take count) (founds.take count) :=
  List.forall₂_take count hall

end HoldsAll

theorem answer_hasType {type : TypeRef} {symbol : Symbol} {founds : List Value}
    {outside outside' : Outside ω} {found : Value}
    (hanswer : oracle.answer type symbol founds outside = some (found, outside')) :
    found.HasType type := by
  obtain ⟨⟨value, world⟩, hcall, heq⟩ := Option.map_eq_some_iff.mp hanswer
  cases heq
  exact oracle.hasType hcall

namespace Yields

variable {α : Type} {state : EmitState} {machine : Machine ω}

theorem write {inst : Inst} {machine' : Machine ω} {post : Machine ω → Nat → Unit → Prop}
    (hstate : state.terminated = false) (hopen : inst.isTerminator = false)
    (hexecute : execute oracle arguments machine inst = some machine')
    (hspares : Spares [] state.nextTemp machine machine')
    (hpost : post machine' state.nextTemp ()) :
    Yields oracle arguments whole state machine (Emit.write inst) post := by
  intro after done code before rest hrun _
  obtain ⟨rfl, rfl⟩ := Emit.write_eq_some.mp hrun
  exact ⟨hstate, Nat.le_refl _, machine', .inst hopen hexecute hspares, hpost⟩

theorem guarded {condition : Prop} [Decidable condition] {emitter : Emit α}
    {post : Machine ω → Nat → α → Prop}
    (hemitter : Yields oracle arguments whole state machine emitter post) :
    Yields oracle arguments whole state machine (if condition then Emit.fail else emitter)
      post := by
  split
  · exact fail
  · exact hemitter

theorem callVoid {type : TypeRef} {symbol : Symbol} {values : List LlvmValue} {founds : List Value}
    {found : Value} {outside : Outside ω} (hstate : state.terminated = false)
    (hall : HoldsAll machine state.nextTemp values founds)
    (hanswer : oracle.answer .void symbol founds machine.outside = some (found, outside))
    (htype : type = .void) :
    Yields oracle arguments whole state machine
      (do Emit.write (.call none .void symbol values); return ⟨type, .void⟩)
      (Value.post found type outside) := by
  subst htype
  have hfound : found = .void := by
    cases answer_hasType hanswer
    rfl
  subst hfound
  have hexecute : execute oracle arguments machine (.call none .void symbol values) =
      some { machine with outside := outside } := by
    simp [execute, hall.operands, hanswer]
  refine through (fun machine' _ _ => machine'.outside = outside)
    (write hstate rfl hexecute .outside rfl) ?_
  · intro middle machine' done hopen _ _ houtside
    exact .pure hopen ⟨⟨rfl, by simp [LlvmValue.registers], rfl, .void⟩, houtside⟩

theorem emitCall {type : TypeRef} {symbol : Symbol} {values : List LlvmValue} {founds : List Value}
    {found : Value} {outside : Outside ω} (hstate : state.terminated = false)
    (hall : HoldsAll machine state.nextTemp values founds)
    (hanswer : oracle.answer type symbol founds machine.outside = some (found, outside)) :
    Yields oracle arguments whole state machine (Llvm.emitCall type symbol values)
      (Value.post found type outside) := by
  unfold Llvm.emitCall
  split
  · rename_i htype
    subst htype
    exact callVoid hstate hall hanswer rfl
  · refine through (fun machine' bound id =>
      machine' = ({ machine with outside := outside } : Machine ω).write id found ∧
        bound = id + 1) (result hstate (fun _ => rfl) ?_ ?_ ⟨rfl, rfl⟩) ?_
    · simp [execute, hall.operands, hanswer]
    · exact Spares.outside.thenWrite (Nat.le_refl _) found
    · rintro middle machine' id hopen - - ⟨rfl, hbound⟩
      refine .pure hopen ⟨?_, rfl⟩
      rw [hbound]
      exact .written (answer_hasType hanswer)

theorem emitPrint {type argumentType : TypeRef} {isPrint : Bool} {argument : LlvmValue}
    {held found : Value} {call : Symbol × List Value} {outside : Outside ω}
    (hstate : state.terminated = false)
    (hholds : Holds machine state.nextTemp argument held argumentType)
    (hprinted : printed isPrint held = some call) (htype : type = .void)
    (hanswer : oracle.answer type call.1 call.2 machine.outside = some (found, outside)) :
    Yields oracle arguments whole state machine (Llvm.emitPrint type isPrint argument)
      (Value.post found type outside) := by
  have hhas := hholds.hasType
  have hargument := hholds.type_eq
  subst htype
  cases hhas with
  | int number =>
      cases hprinted
      rw [Llvm.emitPrint, hargument]
      exact callVoid hstate (.cons ⟨_, hholds⟩ .nil) hanswer rfl
  | bool truth =>
      cases hprinted
      rw [Llvm.emitPrint, hargument]
      exact callVoid hstate (.cons ⟨_, hholds⟩ .nil) hanswer rfl
  | u8 byte =>
      cases hprinted
      rw [Llvm.emitPrint, hargument]
      refine through (fun machine' bound id =>
        machine' = machine.write id (.int (byte.setWidth 64)) ∧ bound = id + 1)
        (result hstate (fun _ => rfl) ?_ (.write (Nat.le_refl _) _) ⟨rfl, rfl⟩) ?_
      · simp [execute, hholds.operand]
      · rintro middle machine' id hopen - - ⟨rfl, hbound⟩
        refine callVoid hopen (.cons ⟨.int, ?_⟩ .nil) hanswer rfl
        rw [hbound]
        exact .written (.int _)
  | void => cases hprinted

theorem emitBuiltinCall {structs : StructTable} {type : TypeRef} {moduleName functionName : Name}
    {values : List LlvmValue} {founds : List Value} {found : Value} {call : Symbol × List Value}
    {outside : Outside ω} (hstate : state.terminated = false)
    (hall : HoldsAll machine state.nextTemp values founds)
    (hcalled : called type .builtin moduleName functionName founds = some call)
    (hanswer : oracle.answer type call.1 call.2 machine.outside = some (found, outside)) :
    Yields oracle arguments whole state machine
      (Llvm.emitBuiltinCall structs type moduleName functionName values)
      (Value.post found type outside) := by
  unfold Llvm.emitBuiltinCall
  unfold called at hcalled
  cases hentry : findNamedCall moduleName functionName with
  | some entry =>
      simp only [hentry, Option.some.injEq] at hcalled
      subst hcalled
      exact .guarded (emitCall hstate (hall.take _) hanswer)
  | none =>
      simp only [hentry] at hcalled ⊢
      split
      · simp at hcalled
      · cases hall with
        | cons hfirst _ =>
            obtain ⟨argumentType, hholds⟩ := hfirst
            by_cases htype : type = .void
            · exact emitPrint hstate hholds (by simpa [htype] using hcalled) htype hanswer
            · simp [htype] at hcalled
      · cases hall with
        | cons hfirst _ =>
            obtain ⟨argumentType, hholds⟩ := hfirst
            by_cases htype : type = .void
            · exact emitPrint hstate hholds (by simpa [htype] using hcalled) htype hanswer
            · simp [htype] at hcalled
      · exact fail

end Yields

/-! Expressions. -/

section

variable (context : EmitContext) {program : IrProgram} {types : TypeEnv} {scope : Scope}
  {joint : Joint}

theorem lowerExpression_grows (expression : IrExpr) :
    Grows (lowerExpression context scope expression).value :=
  (lowerExpression_emits context scope _ subset_rfl expression).value.grows

/-- A read of a local is a load from its slot. -/
theorem local_computes (hagrees : Scoped joint scope types) {type : TypeRef} {name : Name}
    (htyped : types.typeOf? name = some type) :
    Computes oracle arguments whole joint (lowerExpression context scope (.local type name)).value
      (eval oracle joint.store (.local type name)) type := by
  intro state machine found outside hopen hevaluate hheld
  rw [eval, Joint.store, Joint.lookup_map] at hevaluate
  obtain ⟨read, hread, hfound⟩ := Option.map_eq_some_iff.mp hevaluate
  obtain ⟨entry, hlookup, rfl⟩ := Option.map_eq_some_iff.mp hread
  cases hfound
  have htype : entry.type = type := by
    rw [hagrees.typeOf? hlookup] at htyped
    exact Option.some.inj htyped
  subst htype
  obtain ⟨front, behind, rfl, -⟩ := List.lookup_eq_some_iff.mp hlookup
  have hentry : (name, entry) ∈ front ++ (name, entry) :: behind := by simp
  have hregister := hheld.register _ hentry
  have hmemory := hheld.memory _ hentry
  have hbinding := hagrees.binding hlookup
  refine Yields.through (fun machine' bound address =>
    machine' = machine ∧ bound = state.nextTemp ∧
      address = ⟨entry.type, .reg entry.register⟩) ?_ ?_
  · refine Yields.through (fun machine' bound binding =>
      machine' = machine ∧ bound = state.nextTemp ∧
        binding = (⟨entry.type, entry.register⟩ : Binding)) (.ofOption hopen ?_) ?_
    · intro binding hfind
      rw [hbinding] at hfind
      exact ⟨rfl, rfl, (Option.some.inj hfind).symm⟩
    · rintro middle machine' binding hopen' - - ⟨rfl, hbound, rfl⟩
      exact .pure hopen' ⟨rfl, hbound, rfl⟩
  · rintro middle machine' address hopen' - - ⟨rfl, hbound, rfl⟩
    refine .register hopen' (fun _ => rfl) ?_ (hheld.hasType _ hentry)
    simp [execute, Machine.slot, hregister, hmemory]

theorem applyBinary_and (first second : Value) : applyBinary .and first second = none := by
  cases first <;> cases second <;> rfl

theorem applyBinary_or (first second : Value) : applyBinary .or first second = none := by
  cases first <;> cases second <;> rfl

mutual

theorem lowerExpression_computes (hnodup : whole.labels.Nodup)
    (hagrees : Scoped joint scope types) :
    (expression : IrExpr) → exprTyped program types expression = true →
      Computes oracle arguments whole joint (lowerExpression context scope expression).value
        (eval oracle joint.store expression) expression.type
  | .int type value, htyped => by
      intro state machine found outside hopen hevaluate _
      rw [eval, Option.some.injEq, Prod.mk.injEq] at hevaluate
      obtain ⟨rfl, rfl⟩ := hevaluate
      refine .pure hopen ⟨⟨rfl, by simp [LlvmValue.registers], rfl, ?_⟩, rfl⟩
      simp only [exprTyped, Bool.or_eq_true, Bool.and_eq_true, decide_eq_true_eq] at htyped
      rcases htyped with htype | ⟨htype, -⟩
      · rw [IrExpr.type, htype]
        exact .int _
      · rw [IrExpr.type, htype]
        exact .u8 _
  | .bool type value, htyped => by
      intro state machine found outside hopen hevaluate _
      rw [eval, Option.some.injEq, Prod.mk.injEq] at hevaluate
      obtain ⟨rfl, rfl⟩ := hevaluate
      have htype : type = .bool := by simpa [exprTyped] using htyped
      refine .pure hopen ⟨⟨rfl, by simp [LlvmValue.registers], rfl, ?_⟩, rfl⟩
      rw [IrExpr.type, htype]
      exact .bool _
  | .local type name, htyped => local_computes context hagrees (by simpa [exprTyped] using htyped)
  | .unary type op operand, htyped => by
      intro state machine found outside hopen hevaluate hheld
      simp only [exprTyped, Bool.and_eq_true] at htyped
      obtain ⟨first, hfirst, happly⟩ := Option.bind_eq_some_iff.mp hevaluate
      obtain ⟨result, hresult, heq⟩ := Option.map_eq_some_iff.mp happly
      cases heq
      refine .bind (lowerExpression_computes hnodup hagrees operand htyped.1 hopen hfirst hheld) ?_
      intro middle machine' value hopen' _ _ hpost
      rw [← hpost.2]
      exact .emitUnary hopen' hpost.1 htyped.2 hresult
  | .binary type op left right, htyped => by
      intro state machine found outside hopen hevaluate hheld
      simp only [exprTyped, Bool.and_eq_true] at htyped
      obtain ⟨⟨hleftTyped, hrightTyped⟩, hbinary⟩ := htyped
      have hleft := lowerExpression_computes hnodup hagrees left hleftTyped
      have hright := lowerExpression_computes hnodup hagrees right hrightTyped
      have hgrows : Grows (lowerExpression context scope right).value :=
        lowerExpression_grows context right
      rw [eval] at hevaluate
      obtain ⟨⟨first, outside'⟩, hfirst, hrest⟩ := Option.bind_eq_some_iff.mp hevaluate
      cases op with
      | and =>
          simp only [binaryTyped, Bool.and_eq_true, decide_eq_true_eq] at hbinary
          obtain ⟨⟨hleftType, hrightType⟩, rfl⟩ := hbinary
          rw [hleftType] at hleft
          rw [hrightType] at hright
          change Yields oracle arguments whole state machine
            (lowerShortCircuit left.type _ _ true) (Value.post found .bool outside)
          rw [hleftType]
          cases first with
          | bool truth =>
              refine lowerShortCircuit_yields hnodup hopen hheld hleft hright hgrows hfirst ?_
              cases truth with
              | true => exact hrest
              | false =>
                  cases hrest
                  exact ⟨rfl, rfl⟩
          | int | u8 | str | ptr | zone | aggregate | void | undef =>
              simp [applyBinary_and] at hrest
      | or =>
          simp only [binaryTyped, Bool.and_eq_true, decide_eq_true_eq] at hbinary
          obtain ⟨⟨hleftType, hrightType⟩, rfl⟩ := hbinary
          rw [hleftType] at hleft
          rw [hrightType] at hright
          change Yields oracle arguments whole state machine
            (lowerShortCircuit left.type _ _ false) (Value.post found .bool outside)
          rw [hleftType]
          cases first with
          | bool truth =>
              refine lowerShortCircuit_yields hnodup hopen hheld hleft hright hgrows hfirst ?_
              cases truth with
              | false => exact hrest
              | true =>
                  cases hrest
                  exact ⟨rfl, rfl⟩
          | int | u8 | str | ptr | zone | aggregate | void | undef =>
              simp [applyBinary_or] at hrest
      | add | sub | mul | div | mod | equal | notEqual | less | lessEqual | greater
      | greaterEqual =>
          obtain ⟨second, hsecond, happly⟩ := Option.bind_eq_some_iff.mp hrest
          obtain ⟨result, hresult, heq⟩ := Option.map_eq_some_iff.mp happly
          cases heq
          refine .bind (hleft hopen hfirst hheld) ?_
          intro middle machine' leftValue hopen' hle hspares hleftPost
          refine .bind (hright hopen' (hleftPost.2 ▸ hsecond) (hheld.spares hspares hle)) ?_
          intro middle' machine'' rightValue hopen'' hle' hspares' hrightPost
          rw [← hrightPost.2]
          exact .emitBinary hopen'' (hleftPost.1.spares hspares' hle') hrightPost.1 hbinary hresult
  | .ifExpr type condition thenExpr elseExpr, htyped => by
      intro state machine found outside hopen hevaluate hheld
      simp only [exprTyped, Bool.and_eq_true, decide_eq_true_eq] at htyped
      obtain ⟨⟨⟨⟨⟨hconditionTyped, hthenTyped⟩, helseTyped⟩, hconditionType⟩, hthenType⟩,
        helseType⟩ := htyped
      have hcondition := lowerExpression_computes hnodup hagrees condition hconditionTyped
      have hthen := lowerExpression_computes hnodup hagrees thenExpr hthenTyped
      have helse := lowerExpression_computes hnodup hagrees elseExpr helseTyped
      rw [hconditionType] at hcondition
      rw [hthenType] at hthen
      rw [helseType] at helse
      rw [eval] at hevaluate
      obtain ⟨⟨test, middle⟩, htest, hchosen⟩ := Option.bind_eq_some_iff.mp hevaluate
      cases test with
      | bool truth =>
          refine lowerIfExpression_yields hnodup hopen hheld hcondition hthen helse
            (lowerExpression_grows context thenExpr) (lowerExpression_grows context elseExpr)
            htest ?_
          cases truth <;> exact hchosen
      | int | u8 | str | ptr | zone | aggregate | void | undef => cases hchosen
  | .call type target moduleName functionName values, htyped => by
      intro state machine found outside hopen hevaluate hheld
      simp only [exprTyped, Bool.and_eq_true] at htyped
      rw [eval] at hevaluate
      obtain ⟨evaluated, hevaluated, hrest⟩ := Option.bind_eq_some_iff.mp hevaluate
      obtain ⟨call, hcall, hanswer⟩ := Option.bind_eq_some_iff.mp hrest
      have harguments := lowerArguments_computes hnodup hagrees values htyped.1 hopen hevaluated
        hheld
      cases target with
      | builtin =>
          refine .guarded (harguments.bind ?_)
          intro middle machine' operands hopen' _ _ hpost
          exact .emitBuiltinCall hopen' hpost.1 hcall (hpost.2 ▸ hanswer)
      | «local» | module =>
          refine .guarded (harguments.bind ?_)
          intro middle machine' operands hopen' _ _ hpost
          cases hcall
          exact .emitCall hopen' hpost.1 (hpost.2 ▸ hanswer)
  | .string _ _, _ | .null _, _ | .arrayLiteral _ _, _ | .sliceFromArray _ _, _ | .index _ _ _, _
  | .sliceView _ _ _ _, _ | .field _ _ _, _ | .structLiteral _ _ _ _, _ | .ok _ _, _ | .err _, _
  | .alloc _ _, _ | .zalloc _ _ _, _ | .addr _ _, _ | .deref _ _, _ => by
      intro state machine found outside _ hevaluate
      simp [eval] at hevaluate

theorem lowerArguments_computes (hnodup : whole.labels.Nodup)
    (hagrees : Scoped joint scope types) :
    (expressions : List IrExpr) → itemsTyped program types expressions = true →
      ∀ ⦃state : EmitState⦄ ⦃machine : Machine ω⦄ ⦃founds : List Value⦄ ⦃outside : Outside ω⦄,
        state.terminated = false →
        evalAll oracle joint.store expressions machine.outside = some (founds, outside) →
        Held joint state.nextTemp machine →
          Yields oracle arguments whole state machine (lowerArguments context scope expressions)
            (fun machine' bound values =>
              HoldsAll machine' bound values founds ∧ machine'.outside = outside)
  | [], _ => by
      intro state machine founds outside hopen hevaluate _
      rw [evalAll, Option.some.injEq, Prod.mk.injEq] at hevaluate
      obtain ⟨rfl, rfl⟩ := hevaluate
      exact .pure hopen ⟨.nil, rfl⟩
  | expression :: rest, htyped => by
      intro state machine founds outside hopen hevaluate hheld
      simp only [itemsTyped, Bool.and_eq_true] at htyped
      rw [evalAll] at hevaluate
      obtain ⟨head, hhead, hrest⟩ := Option.bind_eq_some_iff.mp hevaluate
      obtain ⟨tail, htail, heq⟩ := Option.map_eq_some_iff.mp hrest
      cases heq
      refine .bind (lowerExpression_computes hnodup hagrees expression htyped.1 hopen hhead hheld) ?_
      intro middle machine' value hopen' hle hspares hpost
      refine .bind (lowerArguments_computes hnodup hagrees rest htyped.2 hopen' (hpost.2 ▸ htail)
        (hheld.spares hspares hle)) ?_
      intro middle' machine'' values hopen'' hle' hspares' hpost'
      exact .pure hopen'' ⟨.cons ⟨_, hpost.1.spares hspares' hle'⟩ hpost'.1, hpost'.2⟩

end

end

end Llvm

end Cnegative
