import Cnegative.Backend.Runs
import Cnegative.Syntax.Occurs

namespace Cnegative

open Library (Line Code)

namespace Llvm

/-! Where the names in the emitted code come from. -/

def Inst.runtimeSymbol? : Inst → Option String
  | .call _ _ (.runtime symbol) _ => some symbol
  | .strcmp _ _ _ => some "@strcmp"
  | _ => none

/-- The declared length and the number of the string global an instruction reads. -/
def Inst.stringGlobal? : Inst → Option (Nat × Nat)
  | .stringGep _ length globalId => some (length, globalId)
  | _ => none

/-- What the emitter calls on its own account, and for `print` and `println`. -/
def emitterSymbols : List String :=
  ["@strcmp", "@malloc", "@free", "@cn_free_str", "@cn_zone_enter", "@cn_zone_alloc",
    "@cn_write_int", "@cn_write_bool", "@cn_write_str",
    "@cn_print_int", "@cn_print_bool", "@cn_print_str"]

/-- An instruction names nothing outside its function, or it stands for one of the
expressions that occur. -/
inductive Origin (context : EmitContext) (occurs : IrExpr → Prop) (inst : Inst) : Prop where
  | plain (hsymbol : inst.runtimeSymbol? = none) (hglobal : inst.stringGlobal? = none)
  | emitter {symbol : String} (hmem : symbol ∈ emitterSymbols)
      (hsymbol : inst.runtimeSymbol? = some symbol) (hglobal : inst.stringGlobal? = none)
  | literal {type : TypeRef} {bytes : List UInt8} {globalId : Nat}
      (hoccurs : occurs (.string type bytes))
      (hfind : context.strings.findIdx? (fun entry => entry == bytes) = some globalId)
      (hsymbol : inst.runtimeSymbol? = none)
      (hglobal : inst.stringGlobal? = some (bytes.length + 1, globalId))
  | builtin {type : TypeRef} {moduleName functionName : Name} {arguments : List IrExpr}
      {entry : NamedCall} (hoccurs : occurs (.call type .builtin moduleName functionName arguments))
      (hfind : findNamedCall moduleName functionName = some entry)
      (hsymbol : inst.runtimeSymbol? = some entry.symbol) (hglobal : inst.stringGlobal? = none)

/-- Every instruction `emitter` prints has the property. -/
def Writes {α : Type} (holds : Inst → Prop) (emitter : Emit α) : Prop :=
  ∀ ⦃state after : EmitState⦄ ⦃a : α⦄ ⦃code : Code Inst⦄,
    emitter state = some (a, code, after) → ∀ inst, Line.inst inst ∈ code → holds inst

namespace Writes

variable {α β : Type} {holds : Inst → Prop}

theorem pure (a : α) : Writes holds (pure a) := by
  intro state after b code hrun inst hinst
  obtain ⟨rfl, rfl, rfl⟩ := Emit.pure_eq_some.mp hrun
  cases hinst

theorem fail : Writes holds (Emit.fail : Emit α) :=
  fun _ _ _ _ hrun => (Emit.fail_eq_some.mp hrun).elim

theorem bind {first : Emit α} {next : α → Emit β} (hfirst : Writes holds first)
    (hnext : ∀ a, Writes holds (next a)) : Writes holds (first >>= next) := by
  intro state after b code hrun inst hinst
  obtain ⟨a, before, middle, behind, hrunFirst, hrunNext, rfl⟩ := Emit.bind_eq_some.mp hrun
  rcases List.mem_append.mp hinst with hbefore | hbehind
  · exact hfirst hrunFirst inst hbefore
  · exact hnext a hrunNext inst hbehind

theorem ofOption (option : Option α) : Writes holds (Emit.ofOption option) := by
  cases option with
  | none => exact fail
  | some a => exact pure a

/-- What is looked up may serve the property of the code behind it. -/
theorem bindOption {option : Option α} {next : α → Emit β}
    (hnext : ∀ a, option = some a → Writes holds (next a)) :
    Writes holds (Emit.ofOption option >>= next) := by
  intro state after b code hrun inst hinst
  obtain ⟨a, before, middle, behind, hrunFirst, hrunNext, rfl⟩ := Emit.bind_eq_some.mp hrun
  obtain ⟨hsome, rfl, rfl⟩ := Emit.ofOption_eq_some.mp hrunFirst
  exact hnext a hsome hrunNext inst hinst

theorem nextLabel : Writes holds Emit.nextLabel := by
  intro state after a code hrun inst hinst
  obtain ⟨rfl, rfl, rfl⟩ := Emit.nextLabel_eq_some.mp hrun
  cases hinst

theorem isTerminated : Writes holds Emit.isTerminated := by
  intro state after a code hrun inst hinst
  obtain ⟨rfl, rfl, rfl⟩ := Emit.isTerminated_eq_some.mp hrun
  cases hinst

theorem write {inst : Inst} (hinst : holds inst) : Writes holds (Emit.write inst) := by
  intro state after a code hrun other hother
  obtain ⟨rfl, rfl⟩ := Emit.write_eq_some.mp hrun
  cases List.mem_singleton.mp hother
  exact hinst

theorem terminate {inst : Inst} (hinst : holds inst) : Writes holds (Emit.terminate inst) := by
  intro state after a code hrun other hother
  obtain ⟨rfl, rfl⟩ := Emit.terminate_eq_some.mp hrun
  cases List.mem_singleton.mp hother
  exact hinst

theorem label (id : Nat) : Writes holds (Emit.label id) := by
  intro state after a code hrun inst hinst
  obtain ⟨rfl, rfl⟩ := Emit.label_eq_some.mp hrun
  cases List.mem_singleton.mp hinst

theorem result {inst : Nat → Inst} (hinst : ∀ id, holds (inst id)) :
    Writes holds (Emit.result inst) := by
  intro state after a code hrun other hother
  obtain ⟨rfl, rfl, rfl⟩ := Emit.result_eq_some.mp hrun
  cases List.mem_singleton.mp hother
  exact hinst _

end Writes

section

variable {context : EmitContext} {occurs : IrExpr → Prop}

namespace Writes

theorem emitAlloca {type : TypeRef} : Writes (Origin context occurs) (Llvm.emitAlloca type) :=
  .result fun _ => .plain rfl rfl

theorem emitStore {value : LlvmValue} {pointer : Pointer} :
    Writes (Origin context occurs) (Llvm.emitStore value pointer) :=
  .write (.plain rfl rfl)

/-- An instruction that names nothing, and the register of its result. -/
theorem register {type : TypeRef} {inst : Nat → Inst}
    (hinst : ∀ id, Origin context occurs (inst id)) :
    Writes (Origin context occurs)
      (do return LlvmValue.register type (← Emit.result inst)) :=
  (result hinst).bind fun id => pure (LlvmValue.register type id)

theorem emitLoad {type : TypeRef} {pointer : Pointer} :
    Writes (Origin context occurs) (Llvm.emitLoad type pointer) :=
  register fun _ => .plain rfl rfl

theorem emitBr {target : Nat} : Writes (Origin context occurs) (Llvm.emitBr target) :=
  .terminate (.plain rfl rfl)

theorem emitCondBr {condition : LlvmValue} {thenLabel elseLabel : Nat} :
    Writes (Origin context occurs) (Llvm.emitCondBr condition thenLabel elseLabel) :=
  .terminate (.plain rfl rfl)

theorem emitRet {value : LlvmValue} : Writes (Origin context occurs) (Llvm.emitRet value) := by
  unfold Llvm.emitRet
  split <;> exact .terminate (.plain rfl rfl)

theorem emitBrIfOpen {target : Nat} :
    Writes (Origin context occurs) (Llvm.emitBrIfOpen target) := by
  refine isTerminated.bind fun flag => ?_
  split
  · exact pure ()
  · exact emitBr

theorem beginUnreachableBlockIfNeeded :
    Writes (Origin context occurs) Llvm.beginUnreachableBlockIfNeeded := by
  refine isTerminated.bind fun flag => ?_
  split
  · exact nextLabel.bind label
  · exact pure ()

theorem emitExtractvalue {aggregate : LlvmValue} {type : TypeRef} {index : Nat} :
    Writes (Origin context occurs) (Llvm.emitExtractvalue aggregate type index) :=
  register fun _ => .plain rfl rfl

theorem emitInsertvalue {type : TypeRef} {aggregate : Option Nat} {element : LlvmValue}
    {index : Nat} :
    Writes (Origin context occurs) (Llvm.emitInsertvalue type aggregate element index) :=
  .result fun _ => .plain rfl rfl

theorem emitBoolAnd {left right : LlvmValue} :
    Writes (Origin context occurs) (Llvm.emitBoolAnd left right) :=
  register fun _ => .plain rfl rfl

theorem emitBoolNot {value : LlvmValue} :
    Writes (Origin context occurs) (Llvm.emitBoolNot value) := by
  unfold Llvm.emitBoolNot
  split
  · exact pure _
  · exact register fun _ => .plain rfl rfl

theorem emitIntSub {left right : LlvmValue} :
    Writes (Origin context occurs) (Llvm.emitIntSub left right) := by
  unfold Llvm.emitIntSub
  split
  · exact pure _
  · exact register fun _ => .plain rfl rfl

theorem emitSlice {type : TypeRef} {dataPtr length : LlvmValue} :
    Writes (Origin context occurs) (Llvm.emitSlice type dataPtr length) :=
  emitInsertvalue.bind fun _ => emitInsertvalue.bind fun _ => pure _

theorem emitSizeof {type : TypeRef} : Writes (Origin context occurs) (Llvm.emitSizeof type) :=
  (result fun _ => .plain rfl rfl).bind fun _ => register fun _ => .plain rfl rfl

theorem emitCall {type : TypeRef} {symbol : Symbol} {arguments : List LlvmValue}
    (hcall : ∀ id, Origin context occurs (.call id type symbol arguments)) :
    Writes (Origin context occurs) (Llvm.emitCall type symbol arguments) := by
  unfold Llvm.emitCall
  split
  · exact (write (hcall none)).bind fun _ => pure _
  · exact register fun id => hcall (some id)

theorem foldlM {γ δ : Type} {step : γ → δ → Emit γ} {items : List δ} {first : γ}
    (hstep : ∀ state, ∀ item ∈ items, Writes (Origin context occurs) (step state item)) :
    Writes (Origin context occurs) (items.foldlM step first) := by
  induction items generalizing first with
  | nil => exact pure first
  | cons item rest ih =>
      rw [List.foldlM_cons]
      exact (hstep first item List.mem_cons_self).bind fun state =>
        ih fun state other hother => hstep state other (List.mem_cons_of_mem item hother)

theorem emitAllEqual {items : List (Emit LlvmValue)}
    (hitems : ∀ item ∈ items, Writes (Origin context occurs) item) :
    Writes (Origin context occurs) (Llvm.emitAllEqual items) := by
  refine foldlM fun state item hitem => (hitems item hitem).bind fun itemEq => ?_
  split
  · exact pure itemEq
  · exact emitBoolAnd

theorem emitMemberEquality {left right : LlvmValue} {type : TypeRef} {index : Nat}
    {equality : LlvmValue → LlvmValue → Emit LlvmValue}
    (hequality : ∀ first second, Writes (Origin context occurs) (equality first second)) :
    Writes (Origin context occurs) (Llvm.emitMemberEquality left right type index equality) :=
  emitExtractvalue.bind fun first => emitExtractvalue.bind fun second => hequality first second

theorem emitScalarEquality {left right : LlvmValue} :
    Writes (Origin context occurs) (Llvm.emitScalarEquality left right) :=
  register fun _ => .plain rfl rfl

theorem emitStrEquality {left right : LlvmValue} :
    Writes (Origin context occurs) (Llvm.emitStrEquality left right) :=
  (result fun _ => .emitter (by decide : "@strcmp" ∈ emitterSymbols) rfl rfl).bind fun _ =>
    register fun _ => .plain rfl rfl

theorem emitEqualityWith {onStruct : Name → Name → LlvmValue → LlvmValue → Emit LlvmValue}
    (hstruct : ∀ moduleName name left right,
      Writes (Origin context occurs) (onStruct moduleName name left right))
    (type : TypeRef) {left right : LlvmValue} :
    Writes (Origin context occurs) (Llvm.emitEqualityWith onStruct type left right) := by
  induction type generalizing left right with
  | int | u8 | bool | ptr | null => exact emitScalarEquality
  | str => exact emitStrEquality
  | result inner ih =>
      exact (emitMemberEquality fun _ _ => emitScalarEquality).bind fun _ =>
        (emitMemberEquality fun _ _ => ih).bind fun _ => emitBoolAnd
  | slice inner ih =>
      exact (emitMemberEquality fun _ _ => emitScalarEquality).bind fun _ =>
        (emitMemberEquality fun _ _ => emitScalarEquality).bind fun _ => emitBoolAnd
  | array inner size ih =>
      refine emitAllEqual fun item hitem => ?_
      obtain ⟨index, _, rfl⟩ := List.mem_map.mp hitem
      exact emitMemberEquality fun _ _ => ih
  | named moduleName name => exact hstruct moduleName name left right
  | void | unknown => exact fail

theorem emitStructEquality (structs : StructTable) (depth : Nat) {moduleName name : Name}
    {left right : LlvmValue} :
    Writes (Origin context occurs)
      (Llvm.emitStructEquality structs depth moduleName name left right) := by
  induction depth generalizing moduleName name left right with
  | zero => exact fail
  | succ depth ih =>
      refine (ofOption _).bind fun decl => emitAllEqual fun item hitem => ?_
      obtain ⟨⟨field, index⟩, _, rfl⟩ := List.mem_map.mp hitem
      exact emitMemberEquality fun _ _ => emitEqualityWith (fun _ _ _ _ => ih) field.type

theorem emitValueEquality {structs : StructTable} {left right : LlvmValue} {type : TypeRef} :
    Writes (Origin context occurs) (Llvm.emitValueEquality structs left right type) :=
  emitEqualityWith (fun _ _ _ _ => emitStructEquality structs _) type

theorem emitPrintCall {type : TypeRef} {symbol : String} {argument : LlvmValue}
    (hsymbol : symbol ∈ emitterSymbols) :
    Writes (Origin context occurs) (Llvm.emitPrintCall type symbol argument) :=
  (write (.emitter hsymbol rfl rfl)).bind fun _ => pure _

theorem emitPrint {type : TypeRef} {isPrint : Bool} {argument : LlvmValue} :
    Writes (Origin context occurs) (Llvm.emitPrint type isPrint argument) := by
  unfold Llvm.emitPrint
  split
  · exact emitPrintCall (by cases isPrint <;> decide)
  · exact (result fun _ => .plain rfl rfl).bind fun _ =>
      emitPrintCall (by cases isPrint <;> decide)
  · exact emitPrintCall (by cases isPrint <;> decide)
  · exact emitPrintCall (by cases isPrint <;> decide)
  · exact fail

theorem emitBuiltinCall {structs : StructTable} {type : TypeRef}
    {moduleName functionName : Name} {expressions : List IrExpr} {arguments : List LlvmValue}
    (hoccurs : occurs (.call type .builtin moduleName functionName expressions)) :
    Writes (Origin context occurs)
      (Llvm.emitBuiltinCall structs type moduleName functionName arguments) := by
  unfold Llvm.emitBuiltinCall
  split
  · next entry hfind =>
      split
      · exact fail
      · exact emitCall fun _ => .builtin hoccurs hfind rfl rfl
  · split
    · exact emitValueEquality
    · exact emitPrint
    · exact emitPrint
    · exact fail

theorem emitUnary {type : TypeRef} {op : UnaryOp} {operand : LlvmValue} :
    Writes (Origin context occurs) (Llvm.emitUnary type op operand) := by
  cases op <;> exact register fun _ => .plain rfl rfl

theorem emitBinary {structs : StructTable} {type : TypeRef} {op : BinaryOp}
    {left right : LlvmValue} :
    Writes (Origin context occurs) (Llvm.emitBinary structs type op left right) := by
  unfold Llvm.emitBinary
  split
  · exact emitValueEquality
  · exact emitValueEquality.bind fun _ => emitBoolNot
  · split
    · exact register fun _ => .plain rfl rfl
    · exact register fun _ => .plain rfl rfl
    · exact fail

theorem lowerShortCircuit {type : TypeRef} {left right : Emit LlvmValue} {isAnd : Bool}
    (hleft : Writes (Origin context occurs) left) (hright : Writes (Origin context occurs) right) :
    Writes (Origin context occurs) (Llvm.lowerShortCircuit type left right isAnd) :=
  emitAlloca.bind fun _ => nextLabel.bind fun _ => nextLabel.bind fun _ => nextLabel.bind fun _ =>
    hleft.bind fun _ => emitCondBr.bind fun _ => (label _).bind fun _ =>
    hright.bind fun _ => emitStore.bind fun _ => emitBr.bind fun _ => (label _).bind fun _ =>
    emitStore.bind fun _ => emitBr.bind fun _ => (label _).bind fun _ => emitLoad

theorem lowerIfExpression {type : TypeRef} {condition thenExpr elseExpr : Emit LlvmValue}
    (hcondition : Writes (Origin context occurs) condition)
    (hthen : Writes (Origin context occurs) thenExpr)
    (helse : Writes (Origin context occurs) elseExpr) :
    Writes (Origin context occurs) (Llvm.lowerIfExpression type condition thenExpr elseExpr) :=
  emitAlloca.bind fun _ => nextLabel.bind fun _ => nextLabel.bind fun _ => nextLabel.bind fun _ =>
    hcondition.bind fun _ => emitCondBr.bind fun _ => (label _).bind fun _ =>
    hthen.bind fun _ => emitStore.bind fun _ => emitBr.bind fun _ => (label _).bind fun _ =>
    helse.bind fun _ => emitStore.bind fun _ => emitBr.bind fun _ => (label _).bind fun _ =>
    emitLoad

end Writes

/-! Expressions. -/

/-- Both readings of a lowered expression print such code. -/
structure Lowered.Writes (holds : Inst → Prop) (lowered : Lowered) : Prop where
  value : Llvm.Writes holds lowered.value
  address : Llvm.Writes holds lowered.address

theorem Lowered.Writes.ofValue {type : TypeRef} {value : Emit LlvmValue}
    (hvalue : Llvm.Writes (Origin context occurs) value) :
    (Lowered.ofValue type value).Writes (Origin context occurs) where
  value := hvalue
  address := hvalue.bind fun _ => Writes.emitAlloca.bind fun _ => Writes.emitStore.bind fun _ =>
    .pure _

theorem Lowered.Writes.ofAddress {address : Emit Address}
    (haddress : Llvm.Writes (Origin context occurs) address) :
    (Lowered.ofAddress address).Writes (Origin context occurs) where
  value := haddress.bind fun _ => Writes.emitLoad
  address := haddress

variable {scope : Scope}

theorem Writes.lowerArguments {arguments : List IrExpr}
    (harguments : ∀ argument ∈ arguments,
      (lowerExpression context scope argument).Writes (Origin context occurs)) :
    Writes (Origin context occurs) (Llvm.lowerArguments context scope arguments) := by
  induction arguments with
  | nil => exact pure []
  | cons argument rest ih =>
      obtain ⟨hargument, hrest⟩ := List.forall_mem_cons.mp harguments
      exact hargument.value.bind fun _ => (ih hrest).bind fun _ => pure _

theorem Writes.lowerItems {type : TypeRef} {index : Nat} {aggregate : Option Nat}
    {items : List IrExpr}
    (hitems : ∀ item ∈ items,
      (lowerExpression context scope item).Writes (Origin context occurs)) :
    Writes (Origin context occurs) (Llvm.lowerItems context scope type index aggregate items) := by
  induction items generalizing index aggregate with
  | nil => exact pure aggregate
  | cons item rest ih =>
      obtain ⟨hitem, hrest⟩ := List.forall_mem_cons.mp hitems
      exact hitem.value.bind fun _ => emitInsertvalue.bind fun _ => ih hrest

theorem Writes.lowerFields {decl : IrStruct} {type : TypeRef} {aggregate : Option Nat}
    {fields : List (Name × IrExpr)}
    (hfields : ∀ value ∈ fields.map Prod.snd,
      (lowerExpression context scope value).Writes (Origin context occurs)) :
    Writes (Origin context occurs)
      (Llvm.lowerFields context scope decl type aggregate fields) := by
  induction fields generalizing aggregate with
  | nil => exact pure aggregate
  | cons field rest ih =>
      obtain ⟨hfield, hrest⟩ := List.forall_mem_cons.mp hfields
      exact (ofOption _).bind fun _ => hfield.value.bind fun _ => emitInsertvalue.bind fun _ =>
        ih hrest

theorem Writes.lowerBound {default : Emit LlvmValue} {bound : Option IrExpr}
    (hdefault : Writes (Origin context occurs) default)
    (hbound : ∀ expression ∈ bound.toList,
      (lowerExpression context scope expression).Writes (Origin context occurs)) :
    Writes (Origin context occurs) (Llvm.lowerBound context scope default bound) := by
  cases bound with
  | none => exact hdefault
  | some expression => exact (hbound expression (by simp)).value

/-- The code of an expression, from that of the expressions right below it. -/
theorem Lowered.Writes.step {expression : IrExpr} (hoccurs : occurs expression)
    (hchildren : ∀ child ∈ expression.children,
      (lowerExpression context scope child).Writes (Origin context occurs)) :
    (lowerExpression context scope expression).Writes (Origin context occurs) := by
  cases expression with
  | int | bool | null => exact ofValue (.pure _)
  | string type bytes =>
      exact ofValue (.bindOption fun globalId hfind =>
        .register fun _ => .literal hoccurs hfind rfl rfl)
  | «local» type name => exact ofAddress ((Writes.ofOption _).bind fun _ => .pure _)
  | unary type op operand =>
      exact ofValue ((hchildren operand (by simp [IrExpr.children])).value.bind fun _ =>
        Writes.emitUnary)
  | binary type op left right =>
      have hleft := (hchildren left (by simp [IrExpr.children])).value
      have hright := (hchildren right (by simp [IrExpr.children])).value
      cases op with
      | and | or => exact ofValue (Writes.lowerShortCircuit hleft hright)
      | _ => exact ofValue (hleft.bind fun _ => hright.bind fun _ => Writes.emitBinary)
  | ifExpr type condition thenExpr elseExpr =>
      exact ofValue (Writes.lowerIfExpression
        (hchildren condition (by simp [IrExpr.children])).value
        (hchildren thenExpr (by simp [IrExpr.children])).value
        (hchildren elseExpr (by simp [IrExpr.children])).value)
  | call type target moduleName functionName arguments =>
      have harguments : Llvm.Writes (Origin context occurs)
          (Llvm.lowerArguments context scope arguments) := Writes.lowerArguments hchildren
      cases target with
      | builtin =>
          rw [lowerExpression]
          refine ofValue ?_
          split
          · exact .fail
          · exact harguments.bind fun _ => Writes.emitBuiltinCall hoccurs
      | «local» | module =>
          simp only [lowerExpression]
          refine ofValue ?_
          split
          · exact .fail
          · exact harguments.bind fun _ => Writes.emitCall fun _ => .plain rfl rfl
  | arrayLiteral type items =>
      rw [lowerExpression]
      refine ofValue ((Writes.lowerItems hchildren).bind fun last => ?_)
      split
      · exact .pure _
      · exact .fail
  | sliceFromArray type base =>
      exact ofValue ((hchildren base (by simp [IrExpr.children])).address.bind fun _ =>
        (Writes.result fun _ => .plain rfl rfl).bind fun _ => Writes.emitSlice)
  | index type base position =>
      have hbase := hchildren base (by simp [IrExpr.children])
      have hposition := (hchildren position (by simp [IrExpr.children])).value
      rw [lowerExpression]
      refine ofAddress (hposition.bind fun _ => ?_)
      split
      · exact hbase.value.bind fun _ => Writes.emitExtractvalue.bind fun _ =>
          (Writes.result fun _ => .plain rfl rfl).bind fun _ => .pure _
      · exact hbase.address.bind fun _ =>
          (Writes.result fun _ => .plain rfl rfl).bind fun _ => .pure _
  | sliceView type base start stop =>
      have hbase := hchildren base (by simp [IrExpr.children])
      have hstart := fun bound (hbound : bound ∈ start.toList) =>
        hchildren bound (List.mem_cons_of_mem base (List.mem_append_left _ hbound))
      have hstop := fun bound (hbound : bound ∈ stop.toList) =>
        hchildren bound (List.mem_cons_of_mem base (List.mem_append_right _ hbound))
      rw [lowerExpression]
      refine ofValue ((Writes.lowerBound (.pure _) hstart).bind fun _ => ?_)
      split
      · exact hbase.address.bind fun _ => (Writes.result fun _ => .plain rfl rfl).bind fun _ =>
          (Writes.lowerBound (.pure _) hstop).bind fun _ => Writes.emitIntSub.bind fun _ =>
          Writes.emitSlice
      · exact hbase.value.bind fun _ => Writes.emitExtractvalue.bind fun _ =>
          (Writes.result fun _ => .plain rfl rfl).bind fun _ =>
          (Writes.lowerBound Writes.emitExtractvalue hstop).bind fun _ =>
          Writes.emitIntSub.bind fun _ => Writes.emitSlice
  | field type base fieldName =>
      have hbase := hchildren base (by simp [IrExpr.children])
      rw [lowerExpression]
      refine ofAddress ?_
      split
      · exact hbase.value.bind fun _ => .pure _
      · exact hbase.address.bind fun _ => (Writes.ofOption _).bind fun _ =>
          (Writes.result fun _ => .plain rfl rfl).bind fun _ => .pure _
  | structLiteral type moduleName typeName fields =>
      rw [lowerExpression]
      refine ofValue ((Writes.ofOption _).bind fun decl =>
        (Writes.lowerFields hchildren).bind fun last => ?_)
      split
      · exact .pure _
      · exact .fail
  | ok type value =>
      exact ofValue ((hchildren value (by simp [IrExpr.children])).value.bind fun _ =>
        Writes.emitInsertvalue.bind fun _ => Writes.emitInsertvalue.bind fun _ => .pure _)
  | err type => exact ofValue (Writes.emitInsertvalue.bind fun _ => .pure _)
  | alloc type allocType =>
      exact ofValue (Writes.emitSizeof.bind fun _ => Writes.register fun _ =>
        .emitter (by decide : "@malloc" ∈ emitterSymbols) rfl rfl)
  | zalloc type allocType zoneName =>
      exact ofValue (Writes.emitSizeof.bind fun _ => (Writes.ofOption _).bind fun _ =>
        Writes.emitLoad.bind fun _ => Writes.emitCall fun _ =>
          .emitter (by decide : "@cn_zone_alloc" ∈ emitterSymbols) rfl rfl)
  | addr type target =>
      rw [lowerExpression]
      refine ofValue ?_
      split
      · exact (hchildren target (by simp [IrExpr.children])).address.bind fun _ => .pure _
      · exact .fail
  | deref type target =>
      exact ofAddress ((hchildren target (by simp [IrExpr.children])).value.bind fun _ => .pure _)

theorem Lowered.Writes.lowerExpression
    (hclosed : ∀ expression, occurs expression → ∀ child ∈ expression.children, occurs child)
    {expression : IrExpr} (hoccurs : occurs expression) :
    (lowerExpression context scope expression).Writes (Origin context occurs) := by
  induction expression using IrExpr.inductionOnChildren with
  | hstep expression ih =>
      exact step hoccurs fun child hchild => ih child hchild (hclosed expression hoccurs child hchild)

/-! Statements. -/

namespace Writes

theorem emitNextIteration {type : TypeRef} {iterPtr condLabel : Nat} :
    Writes (Origin context occurs) (Llvm.emitNextIteration type iterPtr condLabel) := by
  refine isTerminated.bind fun flag => ?_
  split
  · exact pure ()
  · exact emitLoad.bind fun _ => (result fun _ => .plain rfl rfl).bind fun _ =>
      emitStore.bind fun _ => emitBr

theorem emitBlock {block : IrBlock}
    (hstatements : ∀ statement ∈ block, ∀ scope,
      Writes (Origin context occurs) (emitStatement context scope statement)) :
    Writes (Origin context occurs) (Llvm.emitBlock context scope block) := by
  induction block generalizing scope with
  | nil => exact pure ()
  | cons statement rest ih =>
      obtain ⟨hstatement, hrest⟩ := List.forall_mem_cons.mp hstatements
      exact beginUnreachableBlockIfNeeded.bind fun _ => (hstatement scope).bind fun after =>
        ih hrest

theorem emitElse {elseLabel mergeLabel : Nat} {elseBlock : Option IrBlock}
    (hblock : ∀ block ∈ elseBlock.toList, ∀ scope,
      Writes (Origin context occurs) (Llvm.emitBlock context scope block)) :
    Writes (Origin context occurs)
      (Llvm.emitElse context scope elseLabel mergeLabel elseBlock) := by
  cases elseBlock with
  | none => exact pure ()
  | some block =>
      exact (label _).bind fun _ => (hblock block (by simp) _).bind fun _ => emitBrIfOpen

theorem emitStatement_step {statement : IrStmt}
    (hexpressions : ∀ expression ∈ statement.expressions, ∀ scope,
      (lowerExpression context scope expression).Writes (Origin context occurs))
    (hblocks : ∀ block ∈ statement.blocks, ∀ scope,
      Writes (Origin context occurs) (Llvm.emitBlock context scope block)) :
    Writes (Origin context occurs) (emitStatement context scope statement) := by
  cases statement with
  | letStmt name isMutable type initializer =>
      exact (hexpressions initializer (by simp [IrStmt.expressions]) _).value.bind fun _ =>
        emitAlloca.bind fun _ => emitStore.bind fun _ => pure _
  | assign target value =>
      rw [emitStatement]
      split
      · exact (hexpressions target (by simp [IrStmt.expressions]) _).address.bind fun _ =>
          (hexpressions value (by simp [IrStmt.expressions]) _).value.bind fun _ =>
          emitStore.bind fun _ => pure _
      · exact fail
  | returnStmt value =>
      cases value with
      | none => exact (terminate (.plain rfl rfl)).bind fun _ => pure _
      | some value =>
          exact (hexpressions value (by simp [IrStmt.expressions]) _).value.bind fun _ =>
            emitRet.bind fun _ => pure _
  | expr value =>
      exact (hexpressions value (by simp [IrStmt.expressions]) _).value.bind fun _ => pure _
  | zone zoneName body =>
      exact emitAlloca.bind fun _ =>
        (emitCall fun _ => .emitter (by decide : "@cn_zone_enter" ∈ emitterSymbols) rfl rfl).bind
          fun _ => emitStore.bind fun _ =>
          (hblocks body (by simp [IrStmt.blocks]) _).bind fun _ => pure _
  | ifStmt condition thenBlock elseBlock =>
      have helse := fun block (hblock : block ∈ elseBlock.toList) =>
        hblocks block (List.mem_cons_of_mem thenBlock hblock)
      exact nextLabel.bind fun _ => nextLabel.bind fun _ => nextLabel.bind fun _ =>
        (hexpressions condition (by simp [IrStmt.expressions]) _).value.bind fun _ =>
        emitCondBr.bind fun _ => (label _).bind fun _ =>
        (hblocks thenBlock (by simp [IrStmt.blocks]) _).bind fun _ => emitBrIfOpen.bind fun _ =>
        (emitElse helse).bind fun _ => (label _).bind fun _ => pure _
  | whileStmt condition body =>
      exact nextLabel.bind fun _ => nextLabel.bind fun _ => nextLabel.bind fun _ =>
        emitBr.bind fun _ => (label _).bind fun _ =>
        (hexpressions condition (by simp [IrStmt.expressions]) _).value.bind fun _ =>
        emitCondBr.bind fun _ => (label _).bind fun _ =>
        (hblocks body (by simp [IrStmt.blocks]) _).bind fun _ => emitBrIfOpen.bind fun _ =>
        (label _).bind fun _ => pure _
  | loop body =>
      exact nextLabel.bind fun _ => nextLabel.bind fun _ => emitBr.bind fun _ =>
        (label _).bind fun _ => (hblocks body (by simp [IrStmt.blocks]) _).bind fun _ =>
        emitBrIfOpen.bind fun _ => (label _).bind fun _ => pure _
  | forStmt name type start stop body =>
      exact emitAlloca.bind fun _ => emitAlloca.bind fun _ => nextLabel.bind fun _ =>
        nextLabel.bind fun _ => nextLabel.bind fun _ =>
        (hexpressions start (by simp [IrStmt.expressions]) _).value.bind fun _ =>
        (hexpressions stop (by simp [IrStmt.expressions]) _).value.bind fun _ =>
        emitStore.bind fun _ => emitStore.bind fun _ => emitBr.bind fun _ =>
        (label _).bind fun _ => emitLoad.bind fun _ => emitLoad.bind fun _ =>
        (result fun _ => .plain rfl rfl).bind fun _ => emitCondBr.bind fun _ =>
        (label _).bind fun _ => (hblocks body (by simp [IrStmt.blocks]) _).bind fun _ =>
        emitNextIteration.bind fun _ => (label _).bind fun _ => pure _
  | free value =>
      refine (hexpressions value (by simp [IrStmt.expressions]) _).value.bind fun freed =>
        (write (.emitter ?_ rfl rfl)).bind fun _ => pure _
      split <;> decide

/-- The code of a statement all of whose places occur. -/
theorem emitStatement
    (hclosed : ∀ expression, occurs expression → ∀ child ∈ expression.children, occurs child)
    {statement : IrStmt} (hoccurs : ∀ part, IrBlock.Occurs part [statement] → occurs part)
    (scope : Scope) : Writes (Origin context occurs) (Llvm.emitStatement context scope statement) := by
  induction statement using IrStmt.inductionOnBlocks generalizing scope with
  | hstep statement ih =>
      refine emitStatement_step (fun expression hexpression scope => ?_)
        (fun block hblock scope => emitBlock fun inner hinner scope => ?_)
      · exact .lowerExpression hclosed
          (hoccurs expression (.here List.mem_cons_self hexpression .self))
      · refine ih block hblock inner hinner (fun part hpart => hoccurs part ?_) scope
        exact .nested List.mem_cons_self hblock (hpart.mono (by simpa using hinner))

theorem emitParameters {index : Nat} {parameters : List Param} :
    Writes (Origin context occurs) (Llvm.emitParameters scope index parameters) := by
  induction parameters generalizing scope index with
  | nil => exact pure scope
  | cons param rest ih =>
      exact emitAlloca.bind fun _ => (write (.plain rfl rfl)).bind fun _ => ih

theorem emitBody {function : IrFunction} :
    Writes (Origin context fun part => IrBlock.Occurs part function.body)
      (Llvm.emitBody context function) := by
  refine emitParameters.bind fun scope => (emitBlock fun statement hstatement scope =>
    emitStatement (fun _ hoccurs _ hchild => hoccurs.of_child hchild)
      (fun part hpart => hpart.mono (by simpa using hstatement)) scope).bind fun _ =>
    isTerminated.bind fun flag => ?_
  split
  · exact pure ()
  · split
    · exact terminate (.plain rfl rfl)
    · exact terminate (.plain rfl rfl)

end Writes

end

theorem origin_of_emitFunction {context : EmitContext} {function : IrFunction} {code : Code Inst}
    (hemit : emitFunction context function = some code) {inst : Inst}
    (hinst : Line.inst inst ∈ code) :
    Origin context (fun part => IrBlock.Occurs part function.body) inst := by
  obtain ⟨⟨done, printed, after⟩, hrun, rfl⟩ := Option.map_eq_some_iff.mp hemit
  exact Writes.emitBody hrun inst hinst

end Llvm

end Cnegative
