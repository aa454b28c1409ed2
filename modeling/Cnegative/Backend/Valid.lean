import Cnegative.Backend.Foretold
import Cnegative.Backend.Strings
import Cnegative.Check.Accepted
import Cnegative.Lower.Project
import Cnegative.Optimize.Fold

namespace Cnegative

open Library (Line Code Chain Frame)

namespace Llvm

namespace Foretold

/-- Every operator but the equalities is an instruction on both operands. -/
theorem emitBinary {structs : StructTable} {type : TypeRef} {op : BinaryOp}
    {left right : LlvmValue} {leftShape rightShape : Shape} (hequal : op ≠ .equal)
    (hnotEqual : op ≠ .notEqual) (hleft : left.shape = leftShape)
    (hright : right.shape = rightShape) :
    Foretold (leftShape.isOperand && rightShape.isOperand)
      (Llvm.emitBinary structs type op left right)
      (fun value => value.shape = ⟨type, .register⟩) := by
  unfold Llvm.emitBinary
  split
  · exact absurd rfl hequal
  · exact absurd rfl hnotEqual
  · split
    · exact .binary (fun _ => rfl) (fun _ => rfl) (fun _ => rfl) hleft hright
    · exact .binary (fun _ => rfl) (fun _ => rfl) (fun _ => rfl) hleft hright
    · exact .fail

/-- A value from either side of a branch. -/
theorem lowerIfExpression {type : TypeRef} {condition thenExpr elseExpr : Emit LlvmValue}
    {test first second : Forecast}
    (hcondition : Foretold test.value condition fun value => value.shape = test.shape)
    (hthen : Foretold first.value thenExpr fun value => value.shape = first.shape)
    (helse : Foretold second.value elseExpr fun value => value.shape = second.shape) :
    Foretold (type ≠ .void && (test.operand && (first.operand && second.operand)))
      (Llvm.lowerIfExpression type condition thenExpr elseExpr)
      (fun value => value.shape = ⟨type, .register⟩) := by
  refine .bind .emitAlloca fun htype resultPtr _ => ?_
  refine .step .nextLabel fun thenLabel _ => .step .nextLabel fun elseLabel _ => ?_
  refine .step .nextLabel fun mergeLabel _ => ?_
  refine .of_eq (hcondition.bind fun _ testValue htest => .bind (.emitCondBr htest) fun _ _ _ =>
    .step .label fun _ _ => hthen.bind fun _ thenValue hthenValue =>
      .bind (.emitStore hthenValue) fun _ _ _ => .step .emitBr fun _ _ =>
        .step .label fun _ _ => helse.bind fun _ elseValue helseValue =>
          .andThen (.emitStore helseValue) fun _ _ _ => .step .emitBr fun _ _ =>
            .step .label fun _ _ => .of_eq .emitLoad htype) ?_
  simp [Forecast.operand, Bool.and_assoc]

theorem lowerShortCircuit {type : TypeRef} {left right : Emit LlvmValue} {isAnd : Bool}
    {first second : Forecast}
    (hleft : Foretold first.value left fun value => value.shape = first.shape)
    (hright : Foretold second.value right fun value => value.shape = second.shape) :
    Foretold (type ≠ .void && (first.operand && second.operand))
      (Llvm.lowerShortCircuit type left right isAnd)
      (fun value => value.shape = ⟨type, .register⟩) := by
  refine .bind .emitAlloca fun htype resultPtr _ => ?_
  refine .step .nextLabel fun rhsLabel _ => .step .nextLabel fun falseOrTrueLabel _ => ?_
  refine .step .nextLabel fun mergeLabel _ => ?_
  have hconstant : (⟨type, .bool (!isAnd)⟩ : LlvmValue).shape = ⟨type, .constant⟩ := rfl
  refine .of_eq (hleft.bind fun _ leftValue hleftValue => .bind (.emitCondBr hleftValue)
    fun _ _ _ => .step .label fun _ _ => hright.bind fun _ rightValue hrightValue =>
      .andThen (.emitStore hrightValue) fun _ _ _ => .step .emitBr fun _ _ =>
        .step .label fun _ _ => .step (.of_eq (.emitStore hconstant) (by simpa using htype))
          fun _ _ => .step .emitBr fun _ _ => .step .label fun _ _ => .of_eq .emitLoad htype) ?_
  simp [Forecast.operand, Bool.and_assoc]

end Foretold

/-! Places. -/

theorem place_asPointer {value : LlvmValue} {shape : Shape} (hvalue : value.shape = shape)
    (type : TypeRef) :
    (⟨type, value.asPointer⟩ : Address).place = ⟨type, decide (shape.kind ≠ .register)⟩ := by
  subst hvalue
  obtain ⟨valueType, data⟩ := value
  cases data <;> rfl

theorem shape_asData {address : Address} {place : Place} (haddress : address.place = place)
    (type : TypeRef) :
    (⟨type, address.pointer.asData⟩ : LlvmValue).shape =
      ⟨type, if place.isStray then .stray else .register⟩ := by
  subst haddress
  obtain ⟨addressType, pointer⟩ := address
  cases pointer <;> rfl

@[simp] theorem place_reg (type : TypeRef) (id : Nat) :
    (⟨type, .reg id⟩ : Address).place = ⟨type, false⟩ := rfl

theorem isStray_eq {address : Address} {place : Place} (haddress : address.place = place) :
    place.isStray = decide (address.pointer = .stray) :=
  congrArg Place.isStray haddress.symm

namespace Foretold

variable {address : Address} {place : Place}

theorem loadPlace (haddress : address.place = place) :
    Foretold (place.type ≠ .void && !place.isStray)
      (Llvm.emitLoad address.type address.pointer)
      (fun value => value.shape = ⟨place.type, .register⟩) := by
  have htype : address.type = place.type := congrArg Place.type haddress
  rw [htype]
  exact .register fun _ => by
    simp [Inst.valid_eq, Inst.types, isStray_eq haddress, Bool.and_comm]

theorem storePlace {value : LlvmValue} {shape : Shape} (haddress : address.place = place)
    (hvalue : value.shape = shape) :
    Foretold (shape.isOperand && !place.isStray) (Llvm.emitStore value address.pointer)
      (fun _ => True) :=
  .write (by simp [Inst.valid_eq, Inst.types, isStray_eq haddress, hvalue])

theorem arrayGep {base : TypeRef} {index : LlvmValue} {shape : Shape}
    (haddress : address.place = place) (hindex : index.shape = shape) :
    Foretold (!place.isStray && (base ≠ .void && shape.isOperand))
      (Emit.result fun id => .arrayGep id base address.pointer index) (fun _ => True) :=
  .result fun _ => by
    simp [Inst.valid_eq, Inst.types, isStray_eq haddress, hindex, Bool.and_comm,
      Bool.and_left_comm]

theorem fieldGep {base : TypeRef} {field : Nat} (haddress : address.place = place) :
    Foretold (!place.isStray && base ≠ .void)
      (Emit.result fun id => .fieldGep id base address.pointer field) (fun _ => True) :=
  .result fun _ => by simp [Inst.valid_eq, Inst.types, isStray_eq haddress]

theorem pointerGep {element : TypeRef} {pointer index : LlvmValue} {shape : Shape}
    (hpointer : pointer.shape.isOperand = true) (hindex : index.shape = shape) :
    Foretold (element ≠ .void && shape.isOperand)
      (Emit.result fun id => .pointerGep id element pointer index) (fun _ => True) :=
  .result fun _ => by simp [Inst.valid_eq, Inst.types, hpointer, hindex, Bool.and_comm]

end Foretold

/-! Scopes. -/

/-- `types` knows the bindings of the scope. -/
def Scope.Typed (types : Name → TypeRef) (scope : Scope) : Prop :=
  ∀ name found, Chain.find? scope name = some found → found.2.type = types name

namespace Scope.Typed

variable {types : Name → TypeRef} {scope : Scope}

theorem push (htyped : Typed types scope) : Typed types scope.push := htyped

theorem define (htyped : Typed types scope) (name : Name) (type : TypeRef) (allocaId : Nat) :
    Typed (Function.update types name type) (scope.define name type allocaId) := by
  intro other found hfind
  cases scope with
  | nil => simp [Scope.define, Chain.define] at hfind
  | cons frame outer =>
      rw [Scope.define, Chain.find?_define] at hfind
      split at hfind
      · rename_i heq
        subst heq
        simp only [Option.some.injEq] at hfind
        subst hfind
        simp
      · rename_i hne
        rw [Function.update_of_ne (Ne.symm hne)]
        exact htyped other found hfind

theorem lookup (htyped : Typed types scope) (name : Name) :
    Foretold true (scope.lookup name) (fun binding => binding.type = types name) := by
  refine .ofOption fun binding hbinding => ?_
  obtain ⟨found, hfind, rfl⟩ := Option.map_eq_some_iff.mp hbinding
  exact htyped name found hfind

end Scope.Typed

/-! Expressions. -/

/-- Both ways to lower an expression, as it was foretold. -/
structure Lowered.Foretold (lowered : Lowered) (forecast : Forecast) : Prop where
  value : Llvm.Foretold forecast.value lowered.value (fun value => value.shape = forecast.shape)
  address : Llvm.Foretold forecast.address lowered.address
    (fun address => address.place = forecast.place)

namespace Lowered

variable {prints : Bool}

theorem ofValue_foretold {type : TypeRef} {shape : Shape} {value : Emit LlvmValue}
    (hvalue : Llvm.Foretold prints value (fun found => found.shape = shape)) :
    (ofValue type value).Foretold (.ofValue type shape prints) where
  value := hvalue
  address := hvalue.bind fun _ _ hstored => .bind .emitAlloca fun _ _ _ =>
    .andThen (.emitStore hstored) fun _ _ _ => .pure rfl

theorem computed_foretold {type : TypeRef} {value : Emit LlvmValue}
    (hvalue : Llvm.Foretold prints value (fun found => found.shape = ⟨type, .register⟩)) :
    (ofValue type value).Foretold (.computed type prints) :=
  ofValue_foretold hvalue

theorem ofAddress_foretold {place : Place} {address : Emit Address}
    (haddress : Llvm.Foretold prints address (fun found => found.place = place)) :
    (ofAddress address).Foretold (.ofPlace place prints) where
  value := haddress.bind fun _ _ hsource => .loadPlace hsource
  address := haddress

end Lowered

theorem all_take_shape {values : List LlvmValue} {forecasts : List Forecast}
    (hvalues : values.map LlvmValue.shape = forecasts.map Forecast.shape) (count : Nat) :
    (values.take count).all (fun value => value.shape.isOperand) =
      ((forecasts.map Forecast.shape).take count).all Shape.isOperand := by
  rw [← hvalues, ← List.map_take, List.all_map]
  rfl

theorem all_shape {values : List LlvmValue} {forecasts : List Forecast}
    (hvalues : values.map LlvmValue.shape = forecasts.map Forecast.shape) :
    values.all (fun value => value.shape.isOperand) =
      (forecasts.map Forecast.shape).all Shape.isOperand := by
  rw [← hvalues, List.all_map]
  rfl

section

variable (context : EmitContext) {types : Name → TypeRef} {scope : Scope}

mutual

theorem lowerExpression_foretold (htyped : scope.Typed types) :
    (expression : IrExpr) → (lowerExpression context scope expression).Foretold
      (forecast context.structs types expression)
  | .int _ _ => Lowered.ofValue_foretold (.pure rfl)
  | .bool _ _ => Lowered.ofValue_foretold (.pure rfl)
  | .null _ => Lowered.ofValue_foretold (.pure rfl)
  | .string _ _ => by
      refine Lowered.ofValue_foretold (.step (.ofOption fun _ _ => trivial) fun _ _ => ?_)
      exact .register fun _ => by simp [Inst.valid_eq, Inst.types]
  | .local _ name => by
      refine Lowered.ofAddress_foretold (.step (htyped.lookup name) fun binding hbinding => ?_)
      exact .pure (by simp [hbinding])
  | .unary _ _ operand => by
      have hoperand := (lowerExpression_foretold htyped operand).value
      exact Lowered.computed_foretold (hoperand.bind fun _ value hvalue => hvalue ▸ .emitUnary)
  | .binary type op left right => by
      have hleft := (lowerExpression_foretold htyped left).value
      have hright := (lowerExpression_foretold htyped right).value
      cases op with
      | and => exact Lowered.ofValue_foretold (.lowerShortCircuit hleft hright)
      | or => exact Lowered.ofValue_foretold (.lowerShortCircuit hleft hright)
      | equal =>
          refine Lowered.ofValue_foretold (hleft.bind fun _ leftValue hleftValue =>
            hright.bind fun _ rightValue hrightValue => ?_)
          rw [← hleftValue, ← hrightValue]
          exact (Foretold.emitValueEquality _ _ _).weaken fun _ hvalue => hvalue.shape_eq
      | notEqual =>
          refine Lowered.ofValue_foretold (hleft.bind fun _ leftValue hleftValue =>
            hright.bind fun _ rightValue hrightValue => ?_)
          rw [← hleftValue, ← hrightValue]
          refine .andThen (.emitValueEquality _ _ _) fun _ equality hequality => ?_
          refine (Foretold.emitBoolNot hequality).weaken fun _ hvalue => ?_
          exact hvalue.trans hequality.shape_eq
      | add | sub | mul | div | mod | less | lessEqual | greater | greaterEqual =>
          exact Lowered.computed_foretold (hleft.bind fun _ leftValue hleftValue =>
            hright.bind fun _ rightValue hrightValue =>
              .emitBinary (by simp) (by simp) hleftValue hrightValue)
  | .ifExpr _ condition thenExpr elseExpr =>
      Lowered.computed_foretold (.lowerIfExpression
        (lowerExpression_foretold htyped condition).value
        (lowerExpression_foretold htyped thenExpr).value
        (lowerExpression_foretold htyped elseExpr).value)
  | .call type target moduleName functionName arguments => by
      have harguments := lowerArguments_foretold htyped arguments
      cases target with
      | builtin =>
          refine Lowered.ofValue_foretold (.guarded (harguments.bind fun _ values hvalues => ?_))
          rw [← all_take_shape hvalues]
          exact .emitBuiltinCall
      | «local» | module =>
          refine Lowered.ofValue_foretold (.guarded (harguments.bind fun _ values hvalues => ?_))
          rw [← all_shape hvalues]
          exact .emitCall
  | .arrayLiteral type items => by
      refine Lowered.computed_foretold
        ((lowerItems_foretold htyped type 0 none items).andThen fun _ found _ => ?_)
      split
      · exact .pure rfl
      · exact .fail
  | .sliceFromArray type base => by
      have hbase := (lowerExpression_foretold htyped base).address
      refine Lowered.computed_foretold (.of_eq (hbase.bind fun _ baseAddress hbaseAddress =>
        .bind (.arrayGep hbaseAddress rfl) fun _ dataReg _ => .emitSlice (by simp) (by simp)) ?_)
      simp [Forecast.target, Bool.and_assoc]
  | .index type base index => by
      have hindex := (lowerExpression_foretold htyped index).value
      have hvalue := (lowerExpression_foretold htyped base).value
      have haddress := (lowerExpression_foretold htyped base).address
      refine Lowered.ofAddress_foretold (hindex.bind fun _ indexValue hindexValue => ?_)
      split
      · refine .of_eq (hvalue.bind fun _ sliceValue hsliceValue =>
          .bind (.emitExtractvalue hsliceValue) fun _ dataPtr hdataPtr =>
            .andThen (.pointerGep (by simp [hdataPtr]) hindexValue) fun _ _ _ => .pure rfl) ?_
        simp [Forecast.operand, Bool.and_assoc]
      · refine .of_eq (haddress.bind fun _ baseAddress hbaseAddress =>
          .andThen (.arrayGep hbaseAddress hindexValue) fun _ _ _ => .pure rfl) ?_
        simp [Forecast.target, Bool.and_assoc]
  | .sliceView type base start stop => by
      have hvalue := (lowerExpression_foretold htyped base).value
      have haddress := (lowerExpression_foretold htyped base).address
      have hfirst := lowerBound_foretold htyped (.pure (shape_constantInt 0)) start
      cases hsize : base.type.arraySize? with
      | some size =>
          have hlast := lowerBound_foretold htyped
            (.pure (shape_constantInt (BitVec.ofNat 64 size))) stop
          simp only [lowerExpression, forecast, hsize]
          refine Lowered.computed_foretold (.of_eq (hfirst.bind fun _ startValue hstart =>
            haddress.bind fun _ baseAddress hbase => .bind (.arrayGep hbase hstart)
              fun _ dataReg _ => hlast.bind fun _ endValue hend =>
                .bind (.emitIntSub hend hstart) fun _ length hlength =>
                  .emitSlice (by simp) hlength) ?_)
          simp [Forecast.target, Bool.and_assoc]
      | none =>
          simp only [lowerExpression, forecast, hsize]
          refine Lowered.computed_foretold (.of_eq (hfirst.bind fun _ startValue hstart =>
            hvalue.bind fun _ baseSlice hbase => .bind (.emitExtractvalue hbase)
              fun hoperand basePtr hbasePtr =>
                .bind (.pointerGep (by simp [hbasePtr]) hstart) fun _ dataReg _ =>
                  .bind (lowerBound_foretold htyped
                    (.of_eq (.emitExtractvalue hbase) hoperand) stop) fun _ endValue hend =>
                    .bind (.emitIntSub hend hstart) fun _ length hlength =>
                      .emitSlice (by simp) hlength) ?_)
          simp [Forecast.operand, Bool.and_assoc]
  | .field _ base fieldName => by
      have hvalue := (lowerExpression_foretold htyped base).value
      have haddress := (lowerExpression_foretold htyped base).address
      cases htype : base.type with
      | ptr inner =>
          simp only [lowerExpression, forecast, htype]
          exact Lowered.ofAddress_foretold (hvalue.andThen fun _ baseValue hbaseValue =>
            .pure (place_asPointer hbaseValue inner))
      | int | u8 | bool | str | void | null | unknown | named | result | slice | array =>
          simp only [lowerExpression, forecast, htype]
          refine Lowered.ofAddress_foretold (.of_eq (haddress.bind fun _ baseAddress hbase =>
            .step (.ofOption fun _ hfield => hfield) fun field hfield =>
              .andThen (.fieldGep hbase) fun _ id _ => .pure ?_) ?_)
          · rw [hfield, place_reg]
            rfl
          · simp [Forecast.target]
  | .structLiteral type moduleName typeName fields => by
      refine Lowered.computed_foretold (.step (.ofOption fun _ _ => trivial) fun decl _ => ?_)
      refine (lowerFields_foretold htyped decl type none fields).andThen fun _ found _ => ?_
      split
      · exact .pure rfl
      · exact .fail
  | .ok type value => by
      have hvalue := (lowerExpression_foretold htyped value).value
      refine Lowered.computed_foretold (hvalue.bind fun _ innerValue hinnerValue => ?_)
      refine .of_eq (.bind (.emitInsertvalue rfl) fun htype okReg _ =>
        .andThen (.emitInsertvalue hinnerValue) fun _ _ _ => .pure rfl) ?_
      by_cases htype : type = .void <;> simp [htype]
  | .err _ => by
      refine Lowered.computed_foretold (.of_eq (.andThen (.emitInsertvalue rfl) fun _ _ _ =>
        .pure rfl) ?_)
      simp
  | .alloc _ _ => by
      refine Lowered.computed_foretold (.andThen .emitSizeof fun _ size hsize => ?_)
      exact .register fun _ => by simp [Inst.valid_eq, Inst.types, hsize]
  | .zalloc type allocType zoneName => by
      refine Lowered.ofValue_foretold (.bind .emitSizeof fun _ size hsize => ?_)
      refine .step (htyped.lookup zoneName) fun binding hbinding => ?_
      rw [← hbinding]
      refine .andThen .emitLoad fun hload zone hzone => .of_eq .emitCall ?_
      simpa [hzone, hsize] using hload
  | .addr type target => by
      have haddress := (lowerExpression_foretold htyped target).address
      refine Lowered.ofValue_foretold ?_
      split
      · exact haddress.andThen fun _ address hplace => .pure (shape_asData hplace type)
      · exact .fail
  | .deref type target => by
      have hvalue := (lowerExpression_foretold htyped target).value
      exact Lowered.ofAddress_foretold (hvalue.andThen fun _ targetValue htargetValue =>
        .pure (place_asPointer htargetValue type))

theorem lowerArguments_foretold (htyped : scope.Typed types) :
    (arguments : List IrExpr) →
      Foretold ((forecastAll context.structs types arguments).all Forecast.value)
        (lowerArguments context scope arguments)
        (fun values => values.map LlvmValue.shape =
          (forecastAll context.structs types arguments).map Forecast.shape)
  | [] => .pure rfl
  | argument :: rest => by
      have hfirst := (lowerExpression_foretold htyped argument).value
      have hrest := lowerArguments_foretold htyped rest
      rw [lowerArguments, forecastAll, List.all_cons]
      refine hfirst.bind fun _ first hshape => hrest.andThen fun _ values hshapes => .pure ?_
      rw [List.map_cons, List.map_cons, hshape, hshapes]

theorem lowerItems_foretold (htyped : scope.Typed types) (type : TypeRef) (index : Nat)
    (aggregate : Option Nat) :
    (items : List IrExpr) →
      Foretold (partsPrint type (forecastAll context.structs types items))
        (lowerItems context scope type index aggregate items) (fun _ => True)
  | [] => .pure trivial
  | item :: rest => by
      have hitem := (lowerExpression_foretold htyped item).value
      rw [lowerItems, forecastAll, partsPrint, List.all_cons, Bool.and_assoc]
      exact hitem.bind fun _ value hvalue => .bind (.emitInsertvalue hvalue) fun _ id _ =>
        lowerItems_foretold htyped type (index + 1) (some id) rest

theorem lowerFields_foretold (htyped : scope.Typed types) (decl : IrStruct) (type : TypeRef)
    (aggregate : Option Nat) :
    (fields : List (Name × IrExpr)) →
      Foretold (partsPrint type (forecastFields context.structs types fields))
        (lowerFields context scope decl type aggregate fields) (fun _ => True)
  | [] => .pure trivial
  | (_, field) :: rest => by
      have hfield := (lowerExpression_foretold htyped field).value
      rw [lowerFields, forecastFields, partsPrint, List.all_cons, Bool.and_assoc]
      exact .step (.ofOption fun _ _ => trivial) fun _ _ => hfield.bind fun _ value hvalue =>
        .bind (.emitInsertvalue hvalue) fun _ id _ =>
          lowerFields_foretold htyped decl type (some id) rest

theorem lowerBound_foretold (htyped : scope.Typed types) {default : Emit LlvmValue} {kind : Kind}
    (hdefault : Foretold true default (fun value => value.shape = ⟨.int, kind⟩)) :
    (bound : Option IrExpr) →
      Foretold (forecastBound context.structs types kind bound).value
        (lowerBound context scope default bound)
        (fun value => value.shape = (forecastBound context.structs types kind bound).shape)
  | none => hdefault
  | some bound => (lowerExpression_foretold htyped bound).value

end

end

/-! Statements. -/

namespace Foretold

theorem emitBrIfOpen {target : Nat} : Foretold true (Llvm.emitBrIfOpen target) (fun _ => True) := by
  refine .step .isTerminated fun terminated _ => ?_
  split
  · exact .pure trivial
  · exact .emitBr

theorem beginUnreachable :
    Foretold true Llvm.beginUnreachableBlockIfNeeded (fun _ => True) := by
  refine .step .isTerminated fun terminated _ => ?_
  split
  · exact .step .nextLabel fun _ _ => .label
  · exact .pure trivial

theorem emitRet {value : LlvmValue} {shape : Shape} (hvalue : value.shape = shape) :
    Foretold (shape.kind = .void || shape.isOperand) (Llvm.emitRet value) (fun _ => True) := by
  have hkind : shape.kind = .void ↔ value.data = .void := by
    rw [← hvalue]
    exact Data.kind_eq_void
  unfold Llvm.emitRet
  split
  · rename_i hvoid
    exact .terminate (by simp [Inst.valid_eq, Inst.types, hkind, hvoid])
  · rename_i hvoid
    exact .terminate (by simp [Inst.valid_eq, Inst.types, hkind, hvoid, hvalue])

/-- The slots of a loop have its type. -/
theorem emitNextIteration {type : TypeRef} {iterPtr condLabel : Nat}
    (htype : decide (type ≠ .void) = true) :
    Foretold true (Llvm.emitNextIteration type iterPtr condLabel) (fun _ => True) := by
  refine .step .isTerminated fun terminated _ => ?_
  split
  · exact .pure trivial
  · refine .step (.of_eq .emitLoad htype) fun currentIter hcurrent => ?_
    refine .step (.result fun _ => ?_) fun nextReg _ => ?_
    · simpa [Inst.valid_eq, Inst.types, hcurrent] using htype
    · exact .step (.of_eq (.emitStore (shape_register _ _)) (by simpa using htype))
        fun _ _ => .emitBr

end Foretold

section

variable (context : EmitContext)

mutual

theorem emitStatement_foretold {types : Name → TypeRef} {scope : Scope}
    (htyped : scope.Typed types) :
    (statement : IrStmt) → Foretold (statementPrints context.structs types statement)
      (emitStatement context scope statement) (Scope.Typed (typesBehind types statement))
  | .letStmt name _ type initializer => by
      have hvalue := (lowerExpression_foretold context htyped initializer).value
      exact hvalue.bind fun _ value hshape => .bind .emitAlloca fun _ id _ =>
        .andThen (.emitStore hshape) fun _ _ _ => .pure (htyped.define name type id)
  | .assign target value => by
      have htarget := (lowerExpression_foretold context htyped target).address
      have hvalue := (lowerExpression_foretold context htyped value).value
      rw [emitStatement]
      split
      · exact htarget.bind fun _ address haddress => hvalue.bind fun _ stored hstored =>
          .andThen (.storePlace haddress hstored) fun _ _ _ => .pure htyped
      · exact .fail
  | .returnStmt none =>
      .step (.terminate (by simp [Inst.valid_eq, Inst.types])) fun _ _ => .pure htyped
  | .returnStmt (some value) => by
      have hvalue := (lowerExpression_foretold context htyped value).value
      exact hvalue.bind fun _ returned hreturned =>
        .andThen (.emitRet hreturned) fun _ _ _ => .pure htyped
  | .expr value =>
      (lowerExpression_foretold context htyped value).value.andThen fun _ _ _ => .pure htyped
  | .zone zoneName body => by
      refine .step (.of_eq .emitAlloca (by simp)) fun zonePtr _ => ?_
      refine .step (.of_eq .emitCall (by simp)) fun zoneValue hzone => ?_
      refine .step (.of_eq (.emitStore hzone) (by simp [callShape])) fun _ _ => ?_
      exact .andThen (emitBlock_foretold (htyped.push.define zoneName (.ptr .u8) zonePtr).push body)
        fun _ _ _ => .pure htyped
  | .ifStmt condition thenBlock elseBlock => by
      have hcondition := (lowerExpression_foretold context htyped condition).value
      have hthen := emitBlock_foretold htyped.push thenBlock
      have helse := emitElse_foretold htyped elseBlock
      refine .step .nextLabel fun thenLabel _ => .step .nextLabel fun elseLabel _ => ?_
      refine .step .nextLabel fun mergeLabel _ => ?_
      refine .of_eq (hcondition.bind fun _ test htest => .bind (.emitCondBr htest) fun _ _ _ =>
        .step .label fun _ _ => hthen.bind fun _ _ _ => .step .emitBrIfOpen fun _ _ =>
          (helse elseLabel mergeLabel).andThen fun _ _ _ => .step .label fun _ _ =>
            .pure htyped) ?_
      simp [statementPrints, Forecast.operand, Bool.and_assoc]
  | .whileStmt condition body => by
      have hcondition := (lowerExpression_foretold context htyped condition).value
      have hbody := emitBlock_foretold htyped.push body
      refine .step .nextLabel fun condLabel _ => .step .nextLabel fun bodyLabel _ => ?_
      refine .step .nextLabel fun endLabel _ => .step .emitBr fun _ _ => .step .label fun _ _ => ?_
      refine .of_eq (hcondition.bind fun _ test htest => .bind (.emitCondBr htest) fun _ _ _ =>
        .step .label fun _ _ => hbody.andThen fun _ _ _ => .step .emitBrIfOpen fun _ _ =>
          .step .label fun _ _ => .pure htyped) ?_
      simp [statementPrints, Forecast.operand, Bool.and_assoc]
  | .loop body => by
      have hbody := emitBlock_foretold htyped.push body
      refine .step .nextLabel fun bodyLabel _ => .step .nextLabel fun endLabel _ => ?_
      exact .step .emitBr fun _ _ => .step .label fun _ _ => hbody.andThen fun _ _ _ =>
        .step .emitBrIfOpen fun _ _ => .step .label fun _ _ => .pure htyped
  | .forStmt name type start stop body => by
      have hstart := (lowerExpression_foretold context htyped start).value
      have hstop := (lowerExpression_foretold context htyped stop).value
      refine .bind .emitAlloca fun htype iterPtr _ => .step (.of_eq .emitAlloca htype)
        fun endPtr _ => ?_
      refine .step .nextLabel fun condLabel _ => .step .nextLabel fun bodyLabel _ => ?_
      refine .step .nextLabel fun endLabel _ => ?_
      have hbody := emitBlock_foretold (htyped.push.define name type iterPtr).push body
      refine hstart.bind fun _ startValue hstartValue => hstop.bind fun _ endValue hendValue => ?_
      refine .bind (.emitStore hstartValue) fun _ _ _ => .bind (.emitStore hendValue) fun _ _ _ => ?_
      refine .step .emitBr fun _ _ => .step .label fun _ _ => ?_
      refine .step (.of_eq .emitLoad htype) fun iterValue hiter => ?_
      refine .step (.of_eq .emitLoad htype) fun boundValue hbound => ?_
      refine .step (.result fun _ => ?_) fun cmpReg _ => ?_
      · simpa [Inst.valid_eq, Inst.types, hiter, hbound] using htype
      refine .step (.of_eq (.emitCondBr (shape_register _ _)) (by simp)) fun _ _ => ?_
      exact .step .label fun _ _ => hbody.andThen fun _ _ _ =>
        .step (.emitNextIteration htype) fun _ _ => .step .label fun _ _ => .pure htyped
  | .free value => by
      have hvalue := (lowerExpression_foretold context htyped value).value
      exact hvalue.bind fun _ freed hfreed => .andThen
        (.write (by simp [Inst.valid_eq, Inst.types, hfreed])) fun _ _ _ => .pure htyped

theorem emitElse_foretold {types : Name → TypeRef} {scope : Scope} (htyped : scope.Typed types) :
    (block : Option (List IrStmt)) → ∀ elseLabel mergeLabel : Nat,
      Foretold (elsePrints context.structs types block)
        (emitElse context scope elseLabel mergeLabel block) (fun _ => True)
  | none => fun _ _ => .pure trivial
  | some block => fun _ _ => .step .label fun _ _ =>
      (emitBlock_foretold htyped.push block).andThen fun _ _ _ => .emitBrIfOpen

theorem emitBlock_foretold {types : Name → TypeRef} {scope : Scope}
    (htyped : scope.Typed types) :
    (block : List IrStmt) → Foretold (blockPrints context.structs types block)
      (emitBlock context scope block) (fun _ => True)
  | [] => .pure trivial
  | statement :: rest => .step .beginUnreachable fun _ _ =>
      (emitStatement_foretold htyped statement).bind fun _ _ hafter =>
        emitBlock_foretold hafter rest

end

theorem emitParameters_foretold {types : Name → TypeRef} {scope : Scope}
    (htyped : scope.Typed types) (index : Nat) (params : List Param) :
    Foretold (parametersPrint params) (emitParameters scope index params)
      (Scope.Typed (parameterTypes types params)) := by
  induction params generalizing types scope index with
  | nil => exact .pure htyped
  | cons param rest ih =>
      rw [parametersPrint, List.all_cons]
      refine .bind .emitAlloca fun htype id _ => .step (.write ?_) fun _ _ => ?_
      · simpa [Inst.valid_eq, Inst.types] using htype
      · exact ih (htyped.define param.name param.type id) (index + 1)

theorem emitBody_foretold (function : IrFunction) :
    Foretold (functionPrints context.structs function) (emitBody context function)
      (fun _ => True) := by
  have hempty : Scope.Typed (fun _ => .unknown) (Scope.push []) := by
    intro name found hfind
    simp [Scope.push] at hfind
  refine .bind (emitParameters_foretold hempty 0 function.parameters) fun _ scope hscope => ?_
  refine .andThen (emitBlock_foretold context hscope function.body) fun _ _ _ => ?_
  refine .step .isTerminated fun terminated _ => ?_
  split
  · exact .pure trivial
  · split
    · exact .terminate (by simp [Inst.valid_eq, Inst.types])
    · exact .terminate (by simp [Inst.valid_eq, Inst.types])

/-- What is printed for a function is a valid body just if every place it uses is reached through
a register and it computes with values, never with `void`. -/
theorem emitFunction_valid_iff {context : EmitContext} {function : IrFunction} {body : Code Inst}
    (hemit : emitFunction context function = some body) :
    ValidBody body ↔ functionPrints context.structs function = true := by
  obtain ⟨⟨_, code, after⟩, hrun, rfl⟩ := Option.map_eq_some_iff.mp hemit
  have hvalid := (emitBody_foretold context function hrun).1
  rw [← hvalid]
  constructor
  · intro hbody inst hinst
    simp [Inst.valid, hbody.noVoidOperand inst hinst, hbody.noStrayRegister inst hinst]
  · intro hall
    refine ⟨emitFunction_wellFormed hemit, fun inst hinst => ?_, fun inst hinst => ?_⟩
    · exact (Bool.and_eq_true_iff.mp (hall inst hinst)).1
    · exact (Bool.and_eq_true_iff.mp (hall inst hinst)).2

end

def nullSlotFunction : IrFunction :=
  ⟨false, "main", "main", .int, [], [
    .letStmt "p" false (.ptr .int) (.null (.ptr .int)),
    .returnStmt (some (.deref .int (.local (.ptr .int) "p")))]⟩

/-- `let p:ptr int = null; return deref p;` -/
theorem null_in_slot_is_valid :
    ∃ body, emitFunction ⟨[], []⟩ nullSlotFunction = some body ∧ ValidBody body := by
  have hemit : emitFunction ⟨[], []⟩ nullSlotFunction = some _ := rfl
  exact ⟨_, hemit, (emitFunction_valid_iff hemit).mpr (by decide +kernel)⟩

/-- `let q:ptr int = alloc int; return deref (if false { q } else { null });` -/
def foldedNullBody : Block := [
  .letStmt "q" false (.ptr .int) (.alloc .int),
  .returnStmt (some (.deref (.ifExpr (.bool false) (.name "q") .null)))]

def foldedNullFunction : IrFunction :=
  ⟨false, "main", "main", .int, [], [
    .letStmt "q" false (.ptr .int) (.alloc (.ptr .int) .int),
    .returnStmt (some (.deref .int (.null (.ptr .int))))]⟩

def foldedNullProgram : IrProgram := ⟨[⟨"main", [], [], [foldedNullFunction]⟩]⟩

def foldedNullCode : Code Inst := [
  .inst (.sizeGep 0 .int),
  .inst (.ptrToInt 1 0),
  .inst (.call (some 2) (.ptr .int) (.runtime "@malloc") [.register .int 1]),
  .inst (.alloca 3 (.ptr .int)),
  .inst (.store (.register (.ptr .int) 2) (.reg 3)),
  .inst (.load 4 .int .stray),
  .inst (.ret (.register .int 4))]

/-- The optimizer leaves `deref null`, and the load reads the null as a register number. -/
theorem folded_null_is_read_as_register :
    Check.Accepted (mainProject foldedNullBody) ∧
      (Lower.lowerProject (mainProject foldedNullBody)).bind Optimize.optimizeProgram =
        some foldedNullProgram ∧
      emitFunction (emitContext foldedNullProgram) foldedNullFunction = some foldedNullCode ∧
      ¬ ValidBody foldedNullCode := by
  refine ⟨by decide +kernel, rfl, rfl, fun hvalid => ?_⟩
  have hload := hvalid.noStrayRegister (.load 4 .int .stray) (by simp [foldedNullCode])
  cases hload

end Llvm

end Cnegative
