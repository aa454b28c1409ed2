import Cnegative.Backend.Forecast

namespace Cnegative

open Library (Line Code Chain Frame)

namespace Llvm

/-- A line LLVM reads. -/
def Inst.valid (inst : Inst) : Bool := inst.noVoidOperand && inst.noStrayRegister

@[simp] theorem Data.kind_eq_void {data : Data} : data.kind = .void ↔ data = .void := by
  cases data <;> simp [kind]

@[simp] theorem Data.kind_eq_stray {data : Data} : data.kind = .stray ↔ data = .stray := by
  cases data <;> simp [kind]

theorem Shape.isOperand_iff {shape : Shape} :
    shape.isOperand = true ↔ shape.type ≠ .void ∧ shape.kind ≠ .void ∧ shape.kind ≠ .stray := by
  simp [isOperand, and_assoc]

theorem isOperand_eq {value : LlvmValue} :
    value.shape.isOperand = true ↔ value.isOperand = true ∧ value.data ≠ .stray := by
  rw [Shape.isOperand_iff]
  simp [LlvmValue.isOperand, LlvmValue.shape, and_assoc]

theorem Data.kind_eq_int {data : Data} : data.kind = .int ↔ ∃ value, data = .int value := by
  cases data <;> simp [kind]

theorem Inst.valid_eq (inst : Inst) :
    inst.valid = (inst.operands.all (fun value => value.shape.isOperand) &&
      inst.pointers.all (fun pointer => pointer ≠ .stray) &&
      inst.types.all fun type => type ≠ .void) := by
  rw [Bool.eq_iff_iff]
  simp only [valid, noVoidOperand, noStrayRegister, Bool.and_eq_true, List.all_eq_true,
    isOperand_eq, decide_eq_true_eq, ne_eq]
  constructor
  · rintro ⟨⟨hvoid, htypes⟩, hstray, hpointers⟩
    exact ⟨⟨fun value hvalue => ⟨hvoid value hvalue, hstray value hvalue⟩, hpointers⟩, htypes⟩
  · rintro ⟨⟨hoperands, hpointers⟩, htypes⟩
    exact ⟨⟨fun value hvalue => (hoperands value hvalue).1, htypes⟩,
      fun value hvalue => (hoperands value hvalue).2, hpointers⟩

def AllValid (code : Code Inst) : Prop := ∀ inst, .inst inst ∈ code → inst.valid = true

@[simp] theorem allValid_nil : AllValid [] := fun _ hmem => absurd hmem List.not_mem_nil

@[simp] theorem allValid_append {before behind : Code Inst} :
    AllValid (before ++ behind) ↔ AllValid before ∧ AllValid behind := by
  simp only [AllValid, List.mem_append, or_imp, forall_and]

@[simp] theorem allValid_inst {inst : Inst} :
    AllValid [.inst inst] ↔ inst.valid = true := by
  simp [AllValid]

@[simp] theorem allValid_label {id : Nat} : AllValid [.label id] := by
  simp [AllValid]

/-- What `emitter` prints is valid just if `prints`, and its result is then as `post` says. -/
def Foretold {α : Type} (prints : Bool) (emitter : Emit α) (post : α → Prop) : Prop :=
  ∀ ⦃state after : EmitState⦄ ⦃a : α⦄ ⦃code : Code Inst⦄, emitter state = some (a, code, after) →
    (AllValid code ↔ prints = true) ∧ (prints = true → post a)

namespace Foretold

variable {α β : Type} {prints rest : Bool} {emitter : Emit α} {post : α → Prop}
  {post' : β → Prop}

theorem pure {a : α} (ha : post a) : Foretold true (pure a) post := by
  intro state after b code hrun
  obtain ⟨rfl, rfl, rfl⟩ := Emit.pure_eq_some.mp hrun
  exact ⟨by simp, fun _ => ha⟩

theorem fail : Foretold prints (Emit.fail : Emit α) post := by
  intro state after a code hrun
  exact (Emit.fail_eq_some.mp hrun).elim

theorem guarded {condition : Prop} [Decidable condition]
    (hemitter : Foretold prints emitter post) :
    Foretold prints (if condition then Emit.fail else emitter) post := by
  split
  · exact fail
  · exact hemitter

theorem ofOption {option : Option α} (hpost : ∀ a, option = some a → post a) :
    Foretold true (Emit.ofOption option) post := by
  intro state after a code hrun
  obtain ⟨hsome, rfl, rfl⟩ := Emit.ofOption_eq_some.mp hrun
  exact ⟨by simp, fun _ => hpost a hsome⟩

theorem bind {next : α → Emit β} (hfirst : Foretold prints emitter post)
    (hnext : prints = true → ∀ a, post a → Foretold rest (next a) post') :
    Foretold (prints && rest) (emitter >>= next) post' := by
  intro state after b code hrun
  obtain ⟨a, before, middle, behind, hrunFirst, hrunNext, rfl⟩ := Emit.bind_eq_some.mp hrun
  obtain ⟨hbefore, hpost⟩ := hfirst hrunFirst
  cases prints with
  | false => simp [hbefore]
  | true =>
      obtain ⟨hbehind, hpost'⟩ := hnext rfl a (hpost rfl) hrunNext
      exact ⟨by simp [hbefore, hbehind], fun hrest => hpost' (by simpa using hrest)⟩

/-- The first emitter prints nothing that could be wrong. -/
theorem step {next : α → Emit β} (hfirst : Foretold true emitter post)
    (hnext : ∀ a, post a → Foretold prints (next a) post') :
    Foretold prints (emitter >>= next) post' :=
  hfirst.bind fun _ => hnext

/-- Only the first emitter prints something that could be wrong. -/
theorem andThen {next : α → Emit β} (hfirst : Foretold prints emitter post)
    (hnext : prints = true → ∀ a, post a → Foretold true (next a) post') :
    Foretold prints (emitter >>= next) post' := by
  simpa using hfirst.bind hnext

theorem weaken {post'' : α → Prop} (hemitter : Foretold prints emitter post)
    (hpost : ∀ a, post a → post'' a) : Foretold prints emitter post'' :=
  fun _ _ _ _ hrun => ⟨(hemitter hrun).1, fun hprints => hpost _ ((hemitter hrun).2 hprints)⟩

theorem of_eq {prints' : Bool} (hemitter : Foretold prints emitter post)
    (heq : prints = prints') : Foretold prints' emitter post :=
  heq ▸ hemitter

theorem write {inst : Inst} (hvalid : inst.valid = prints) :
    Foretold prints (Emit.write inst) (fun _ => True) := by
  intro state after _ code hrun
  obtain ⟨rfl, rfl⟩ := Emit.write_eq_some.mp hrun
  simp [hvalid]

theorem terminate {inst : Inst} (hvalid : inst.valid = prints) :
    Foretold prints (Emit.terminate inst) (fun _ => True) := by
  intro state after _ code hrun
  obtain ⟨rfl, rfl⟩ := Emit.terminate_eq_some.mp hrun
  simp [hvalid]

theorem result {inst : Nat → Inst} (hvalid : ∀ id, (inst id).valid = prints) :
    Foretold prints (Emit.result inst) (fun _ => True) := by
  intro state after id code hrun
  obtain ⟨rfl, rfl, rfl⟩ := Emit.result_eq_some.mp hrun
  simp [hvalid]

theorem label {id : Nat} : Foretold true (Emit.label id) (fun _ => True) := by
  intro state after _ code hrun
  obtain ⟨rfl, rfl⟩ := Emit.label_eq_some.mp hrun
  simp

theorem nextLabel : Foretold true Emit.nextLabel (fun _ => True) := by
  intro state after id code hrun
  obtain ⟨rfl, rfl, rfl⟩ := Emit.nextLabel_eq_some.mp hrun
  simp

theorem isTerminated : Foretold true Emit.isTerminated (fun _ => True) := by
  intro state after flag code hrun
  obtain ⟨rfl, rfl, rfl⟩ := Emit.isTerminated_eq_some.mp hrun
  simp

end Foretold

/-! The emitters of single lines. -/

@[simp] theorem shape_register (type : TypeRef) (id : Nat) :
    (LlvmValue.register type id).shape = ⟨type, .register⟩ := rfl

@[simp] theorem shape_constantInt (value : BitVec 64) :
    (constantInt value).shape = ⟨.int, .int⟩ := rfl

@[simp] theorem shape_constantBool (value : Bool) :
    (constantBool value).shape = ⟨.bool, .constant⟩ := rfl

@[simp] theorem isOperand_register (type : TypeRef) :
    Shape.isOperand ⟨type, .register⟩ = decide (type ≠ .void) := by
  simp [Shape.isOperand]

@[simp] theorem isOperand_int : Shape.isOperand ⟨.int, .int⟩ = true := rfl

@[simp] theorem isOperand_constant (type : TypeRef) :
    Shape.isOperand ⟨type, .constant⟩ = decide (type ≠ .void) := by
  simp [Shape.isOperand]

namespace Foretold

theorem register {type : TypeRef} {prints : Bool} {inst : Nat → Inst}
    (hvalid : ∀ id, (inst id).valid = prints) :
    Foretold prints (do return LlvmValue.register type (← Emit.result inst))
      (fun value => value.shape = ⟨type, .register⟩) :=
  (result hvalid).andThen fun _ _ _ => .pure rfl

theorem emitAlloca {type : TypeRef} :
    Foretold (type ≠ .void) (Llvm.emitAlloca type) (fun _ => True) :=
  .result fun _ => by simp [Inst.valid_eq, Inst.types]

theorem emitStore {value : LlvmValue} {shape : Shape} {id : Nat} (hvalue : value.shape = shape) :
    Foretold shape.isOperand (Llvm.emitStore value (.reg id)) (fun _ => True) :=
  .write (by simp [Inst.valid_eq, Inst.types, hvalue])

theorem emitLoad {type : TypeRef} {id : Nat} :
    Foretold (type ≠ .void) (Llvm.emitLoad type (.reg id))
      (fun value => value.shape = ⟨type, .register⟩) :=
  .register fun _ => by simp [Inst.valid_eq, Inst.types]

theorem emitBr {target : Nat} : Foretold true (Llvm.emitBr target) (fun _ => True) :=
  .terminate (by simp [Inst.valid_eq, Inst.types_br])

theorem emitCondBr {condition : LlvmValue} {shape : Shape} {thenLabel elseLabel : Nat}
    (hcondition : condition.shape = shape) :
    Foretold shape.isOperand (Llvm.emitCondBr condition thenLabel elseLabel) (fun _ => True) :=
  .terminate (by simp [Inst.valid_eq, Inst.types, hcondition])

theorem emitExtractvalue {aggregate : LlvmValue} {shape : Shape} {type : TypeRef} {index : Nat}
    (haggregate : aggregate.shape = shape) :
    Foretold shape.isOperand (Llvm.emitExtractvalue aggregate type index)
      (fun value => value.shape = ⟨type, .register⟩) :=
  .register fun _ => by simp [Inst.valid_eq, Inst.types, haggregate]

theorem emitInsertvalue {type : TypeRef} {aggregate : Option Nat} {element : LlvmValue}
    {shape : Shape} {index : Nat} (helement : element.shape = shape) :
    Foretold (type ≠ .void && shape.isOperand)
      (Llvm.emitInsertvalue type aggregate element index) (fun _ => True) :=
  .result fun _ => by simp [Inst.valid_eq, Inst.types, helement, Bool.and_comm]

/-- An instruction on two values. -/
theorem binary {type : TypeRef} {inst : Nat → Inst} {left right : LlvmValue}
    {leftShape rightShape : Shape} (hoperands : ∀ id, (inst id).operands = [left, right])
    (hpointers : ∀ id, (inst id).pointers = []) (htypes : ∀ id, (inst id).types = [])
    (hleft : left.shape = leftShape) (hright : right.shape = rightShape) :
    Foretold (leftShape.isOperand && rightShape.isOperand)
      (do return LlvmValue.register type (← Emit.result inst))
      (fun value => value.shape = ⟨type, .register⟩) :=
  .register fun id => by
    rw [Inst.valid_eq, hoperands, hpointers, htypes]
    simp [hleft, hright]

theorem emitBoolAnd {left right : LlvmValue} {leftShape rightShape : Shape}
    (hleft : left.shape = leftShape) (hright : right.shape = rightShape) :
    Foretold (leftShape.isOperand && rightShape.isOperand) (Llvm.emitBoolAnd left right)
      (fun value => value.shape = ⟨.bool, .register⟩) :=
  .binary (fun _ => rfl) (fun _ => rfl) (fun _ => rfl) hleft hright

end Foretold

/-! Equality. -/

/-- What an equality gives: the constant `true`, or a register. -/
def IsEquality (isTrue : Bool) (value : LlvmValue) : Prop :=
  value.type = .bool ∧
    if isTrue then value.data = .bool true else value.data.kind = .register

theorem IsEquality.shape_eq {isTrue : Bool} {value : LlvmValue}
    (hvalue : IsEquality isTrue value) :
    value.shape = ⟨.bool, if isTrue then .constant else .register⟩ := by
  obtain ⟨htype, hdata⟩ := hvalue
  cases isTrue with
  | false =>
      have hregister : value.data.kind = .register := by simpa using hdata
      simp [LlvmValue.shape, htype, hregister]
  | true =>
      have hconstant : value.data = .bool true := by simpa using hdata
      simp [LlvmValue.shape, htype, hconstant, Data.kind]

theorem IsEquality.isOperand {isTrue : Bool} {value : LlvmValue}
    (hvalue : IsEquality isTrue value) : value.shape.isOperand = true := by
  rw [hvalue.shape_eq]
  cases isTrue <;> rfl

theorem isEquality_of_register {value : LlvmValue} (hvalue : value.shape = ⟨.bool, .register⟩) :
    IsEquality false value := by
  have htype : value.type = .bool := congrArg Shape.type hvalue
  have hkind : value.data.kind = .register := congrArg Shape.kind hvalue
  exact ⟨htype, by simpa using hkind⟩

namespace Foretold

theorem emitScalarEquality {left right : LlvmValue} :
    Foretold (left.shape.isOperand && right.shape.isOperand) (Llvm.emitScalarEquality left right)
      (IsEquality false) :=
  (binary (fun _ => rfl) (fun _ => rfl) (fun _ => rfl) rfl rfl).weaken
    fun _ => isEquality_of_register

theorem emitStrEquality {left right : LlvmValue} :
    Foretold (left.shape.isOperand && right.shape.isOperand) (Llvm.emitStrEquality left right)
      (IsEquality false) := by
  refine .andThen (.result fun id => ?_) fun _ order _ => ?_
  · simp [Inst.valid_eq, Inst.types]
  · exact (register fun _ => by simp [Inst.valid_eq, Inst.types]).weaken
      fun _ => isEquality_of_register

theorem and_of_equalities {left right : LlvmValue} {leftTrue rightTrue : Bool}
    (hleft : IsEquality leftTrue left) (hright : IsEquality rightTrue right) :
    Foretold true (Llvm.emitBoolAnd left right) (IsEquality false) := by
  refine .of_eq ((emitBoolAnd rfl rfl).weaken fun _ => isEquality_of_register) ?_
  rw [hleft.isOperand, hright.isOperand]
  rfl

theorem emitMemberEquality {left right : LlvmValue} {type : TypeRef} {index : Nat} {isTrue : Bool}
    {equality : LlvmValue → LlvmValue → Emit LlvmValue}
    (hequality : ∀ first second : LlvmValue, first.shape = ⟨type, .register⟩ →
      second.shape = ⟨type, .register⟩ →
        Foretold true (equality first second) (IsEquality isTrue)) :
    Foretold (left.shape.isOperand && right.shape.isOperand)
      (Llvm.emitMemberEquality left right type index equality) (IsEquality isTrue) :=
  .bind (.emitExtractvalue rfl) fun _ first hfirst =>
    .andThen (.emitExtractvalue rfl) fun _ second hsecond => hequality first second hfirst hsecond

theorem emitAllEqual {Item : Type} {prints : Bool} {isTrue : Item → Bool}
    {item : Item → Emit LlvmValue} (items : List Item)
    (hitem : ∀ entry ∈ items, Foretold prints (item entry) (IsEquality (isTrue entry))) :
    Foretold (items.isEmpty || prints) (Llvm.emitAllEqual (items.map item))
      (IsEquality (items.all isTrue)) := by
  have hstart : IsEquality true (constantBool true) := ⟨rfl, rfl⟩
  rw [← Bool.true_and (items.all isTrue)]
  unfold Llvm.emitAllEqual
  generalize constantBool true = result at hstart ⊢
  generalize true = soFar at hstart ⊢
  induction items generalizing result soFar with
  | nil => exact .pure (by simpa using hstart)
  | cons entry rest ih =>
      rw [List.map_cons, List.foldlM_cons]
      have hrest := ih fun other hother => hitem other (List.mem_cons_of_mem _ hother)
      refine .of_eq (@bind _ _ prints (rest.isEmpty || prints) _
        (IsEquality (soFar && isTrue entry)) _ _ ?_ fun _ joined hjoined => ?_) ?_
      · refine (hitem entry (by simp)).andThen fun _ itemEq hitemEq => ?_
        cases soFar with
        | true =>
            have hconstant : result.data = .bool true := by simpa using hstart.2
            rw [hconstant]
            exact .pure (by simpa using hitemEq)
        | false =>
            have hregister : result.data.kind = .register := by simpa using hstart.2
            split
            · rename_i hbool
              rw [hbool] at hregister
              cases hregister
            · exact and_of_equalities hstart hitemEq
      · simpa [Bool.and_assoc] using hrest joined _ hjoined
      · cases prints <;> simp

theorem emitMemberScalarEquality {left right : LlvmValue} {type : TypeRef} {index : Nat}
    (htype : type ≠ .void) :
    Foretold (left.shape.isOperand && right.shape.isOperand)
      (Llvm.emitMemberEquality left right type index Llvm.emitScalarEquality)
      (IsEquality false) :=
  emitMemberEquality fun _ _ hfirst hsecond =>
    .of_eq emitScalarEquality (by simp [hfirst, hsecond, htype])

section

variable {structs : StructTable}
  {onStruct : Name → Name → LlvmValue → LlvmValue → Emit LlvmValue}

theorem of_registers {type : TypeRef} {first second : LlvmValue} {post : LlvmValue → Prop}
    (hequality : Foretold (equalityPrints structs type first.shape second.shape)
      (Llvm.emitEqualityWith onStruct type first second) post)
    (hfirst : first.shape = ⟨type, .register⟩) (hsecond : second.shape = ⟨type, .register⟩) :
    Foretold true (Llvm.emitEqualityWith onStruct type first second) post := by
  by_cases hvoid : type = .void
  · rw [hvoid]
    exact .fail
  · exact hequality.of_eq (by simp [equalityPrints, hfirst, hsecond, hvoid])

theorem emitEqualityWith {isTrue : Name → Name → Bool}
    (honStruct : ∀ (moduleName name : Name) (left right : LlvmValue),
      Foretold (equalityPrints structs (.named moduleName name) left.shape right.shape)
        (onStruct moduleName name left right) (IsEquality (isTrue moduleName name)))
    (type : TypeRef) (left right : LlvmValue) :
    Foretold (equalityPrints structs type left.shape right.shape)
      (Llvm.emitEqualityWith onStruct type left right)
      (IsEquality (equalityIsTrue isTrue type)) := by
  induction type generalizing left right with
  | int | u8 | bool | ptr | null => exact emitScalarEquality
  | str => exact emitStrEquality
  | result inner ih =>
      refine .andThen (emitMemberScalarEquality (by simp)) fun hoperands okEq hokEq => ?_
      refine .step (.of_eq (emitMemberEquality fun first second hfirst hsecond =>
        of_registers (ih first second) hfirst hsecond) hoperands) fun valueEq hvalueEq => ?_
      exact and_of_equalities hokEq hvalueEq
  | slice inner ih =>
      refine .andThen (emitMemberScalarEquality (by simp)) fun hoperands ptrEq hptrEq => ?_
      refine .step (.of_eq (emitMemberScalarEquality (by simp)) hoperands)
        fun lenEq hlenEq => ?_
      exact and_of_equalities hptrEq hlenEq
  | array inner size ih =>
      have hitems := emitAllEqual (List.range size) fun index _ =>
        @emitMemberEquality left right inner index _ _
          fun first second hfirst hsecond => of_registers (ih first second) hfirst hsecond
      cases size with
      | zero =>
          refine .weaken (.of_eq hitems rfl) fun value hvalue => ?_
          simpa [Llvm.equalityIsTrue] using hvalue
      | succ size =>
          refine .weaken (.of_eq hitems (by simp [equalityPrints, comparesNothing])) ?_
          intro value hvalue
          have hall : (List.range (size + 1)).all (fun _ => equalityIsTrue isTrue inner) =
              equalityIsTrue isTrue inner := by
            rw [Bool.eq_iff_iff, List.all_eq_true]
            exact ⟨fun htrue => htrue 0 (by simp), fun htrue _ _ => htrue⟩
          rw [hall] at hvalue
          simpa [equalityIsTrue] using hvalue
  | named moduleName name => exact honStruct moduleName name left right
  | void | unknown => exact .fail

theorem emitStructEquality (depth : Nat) (moduleName name : Name) (left right : LlvmValue) :
    Foretold (equalityPrints structs (.named moduleName name) left.shape right.shape)
      (Llvm.emitStructEquality structs depth moduleName name left right)
      (IsEquality (structEqualityIsTrue structs depth moduleName name)) := by
  induction depth generalizing moduleName name left right with
  | zero => exact .fail
  | succ depth ih =>
      rw [Llvm.emitStructEquality]
      refine .step (.ofOption fun found hfound => hfound) fun decl hfind => ?_
      have hfields := @emitAllEqual _ (left.shape.isOperand && right.shape.isOperand)
        (fun entry => equalityIsTrue (structEqualityIsTrue structs depth) entry.1.type)
        (fun entry => Llvm.emitMemberEquality left right entry.1.type entry.2
          (Llvm.emitEqualityWith (Llvm.emitStructEquality structs depth) entry.1.type))
        decl.fields.zipIdx fun entry _ =>
          emitMemberEquality fun first second hfirst hsecond =>
            of_registers (emitEqualityWith ih entry.1.type first second) hfirst hsecond
      refine .weaken (.of_eq hfields ?_) fun value hvalue => ?_
      · cases hempty : decl.fields <;> simp [equalityPrints, comparesNothing, hfind, hempty]
      · have hall : decl.fields.zipIdx.all (fun entry =>
            equalityIsTrue (structEqualityIsTrue structs depth) entry.1.type) =
            (decl.fields.zipIdx.map Prod.fst).all fun field =>
              equalityIsTrue (structEqualityIsTrue structs depth) field.type := by
          rw [List.all_map]
          rfl
        rw [hall, List.zipIdx_map_fst] at hvalue
        simpa [structEqualityIsTrue, hfind] using hvalue

theorem emitValueEquality (type : TypeRef) (left right : LlvmValue) :
    Foretold (equalityPrints structs type left.shape right.shape)
      (Llvm.emitValueEquality structs left right type)
      (IsEquality (equalityIsTrue (structEqualityIsTrue structs (Value.structDepth structs))
        type)) :=
  emitEqualityWith (emitStructEquality _) type left right

end

/-- The negation of a constant is a constant. -/
theorem emitBoolNot {value : LlvmValue} {isTrue : Bool} (hvalue : IsEquality isTrue value) :
    Foretold true (Llvm.emitBoolNot value) (fun negated => negated.shape = value.shape) := by
  unfold Llvm.emitBoolNot
  split
  · rename_i hconstant
    refine .pure ?_
    simp [LlvmValue.shape, hvalue.1, hconstant, Data.kind, constantBool]
  · rename_i hnot
    have hregister : value.shape = ⟨.bool, .register⟩ := by
      rw [hvalue.shape_eq]
      cases isTrue with
      | false => rfl
      | true => exact absurd (by simpa using hvalue.2) (hnot true)
    rw [hregister]
    exact .register fun _ => by simp [Inst.valid_eq, Inst.types, hregister]

theorem emitIntSub {left right : LlvmValue} {leftShape rightShape : Shape}
    (hleft : left.shape = leftShape) (hright : right.shape = rightShape) :
    Foretold (lengthPrints rightShape leftShape) (Llvm.emitIntSub left right)
      (fun value => value.shape.isOperand = true) := by
  subst hleft hright
  unfold Llvm.emitIntSub
  split
  · rename_i first second hleft hright
    refine .of_eq (.pure (by simp)) ?_
    simp [lengthPrints, LlvmValue.shape, hleft, hright, Data.kind]
  · rename_i hnot
    refine .weaken (.of_eq (.binary (fun _ => rfl) (fun _ => rfl) (fun _ => rfl) rfl rfl) ?_)
      fun value hvalue => by simp [hvalue]
    have hkinds : ¬ (left.shape.kind = .int ∧ right.shape.kind = .int) := by
      intro hkinds
      obtain ⟨first, hfirst⟩ := Data.kind_eq_int.mp hkinds.1
      obtain ⟨second, hsecond⟩ := Data.kind_eq_int.mp hkinds.2
      exact hnot first second hfirst hsecond
    rw [lengthPrints, decide_eq_false hkinds, Bool.false_or]

theorem emitSizeof {type : TypeRef} :
    Foretold (type ≠ .void) (Llvm.emitSizeof type)
      (fun value => value.shape = ⟨.int, .register⟩) :=
  .andThen (.result fun _ => by simp [Inst.valid_eq, Inst.types]) fun _ _ _ =>
    .register fun _ => by simp [Inst.valid_eq, Inst.types]

theorem emitCall {type : TypeRef} {symbol : Symbol} {arguments : List LlvmValue} :
    Foretold (arguments.all fun argument => argument.shape.isOperand)
      (Llvm.emitCall type symbol arguments) (fun value => value.shape = callShape type) := by
  unfold Llvm.emitCall
  split
  · rename_i hvoid
    refine .andThen (.write (by simp [Inst.valid_eq, Inst.types])) fun _ _ _ => .pure ?_
    simp [LlvmValue.shape, callShape, hvoid, Data.kind]
  · rename_i hvalue
    refine .weaken (.register fun _ => by simp [Inst.valid_eq, Inst.types]) fun value hshape => ?_
    simp [hshape, callShape, hvalue]

theorem emitPrintCall {type : TypeRef} {symbol : String} {argument : LlvmValue} :
    Foretold argument.shape.isOperand (Llvm.emitPrintCall type symbol argument)
      (fun value => value.shape = ⟨type, .void⟩) :=
  .andThen (.write (by simp [Inst.valid_eq, Inst.types])) fun _ _ _ => .pure rfl

theorem emitPrint {type : TypeRef} {isPrint : Bool} {argument : LlvmValue} :
    Foretold argument.shape.isOperand (Llvm.emitPrint type isPrint argument)
      (fun value => value.shape = ⟨type, .void⟩) := by
  unfold Llvm.emitPrint
  split
  · exact emitPrintCall
  · exact .andThen (.result fun _ => by simp [Inst.valid_eq, Inst.types]) fun _ _ _ =>
      .of_eq emitPrintCall (by simp)
  · exact emitPrintCall
  · exact emitPrintCall
  · exact .fail

theorem emitBuiltinCall {structs : StructTable} {type : TypeRef}
    {moduleName functionName : Name} {arguments : List LlvmValue} :
    Foretold
      ((arguments.take (builtinArgumentCount moduleName functionName)).all fun argument =>
        argument.shape.isOperand)
      (Llvm.emitBuiltinCall structs type moduleName functionName arguments)
      (fun value => value.shape = builtinShape type moduleName functionName) := by
  unfold Llvm.emitBuiltinCall
  split
  · rename_i entry hfound
    split
    · exact .fail
    · refine .weaken (.of_eq emitCall ?_) fun value hshape => ?_
      · simp [builtinArgumentCount, hfound]
      · simp [hshape, builtinShape, hfound]
  · rename_i hfound
    split
    · refine .weaken (.of_eq (emitValueEquality _ _ _) ?_) fun value hvalue => ?_
      · simp [builtinArgumentCount, hfound, equalityPrints, comparesNothing]
      · rw [hvalue.shape_eq]
        simp [builtinShape, hfound, equalityIsTrue]
    · refine .weaken (.of_eq emitPrint ?_) fun value hshape => ?_
      · simp [builtinArgumentCount, hfound]
      · simp [hshape, builtinShape, hfound]
    · refine .weaken (.of_eq emitPrint ?_) fun value hshape => ?_
      · simp [builtinArgumentCount, hfound]
      · simp [hshape, builtinShape, hfound]
    · exact .fail

theorem emitUnary {type : TypeRef} {op : UnaryOp} {operand : LlvmValue} :
    Foretold operand.shape.isOperand (Llvm.emitUnary type op operand)
      (fun value => value.shape = ⟨type, .register⟩) := by
  cases op with
  | negate => exact .register fun _ => by simp [Inst.valid_eq, Inst.types]
  | not => exact .register fun _ => by simp [Inst.valid_eq, Inst.types]

theorem emitSlice {type : TypeRef} {dataPtr length : LlvmValue}
    (hdata : dataPtr.shape.isOperand = true) (hlength : length.shape.isOperand = true) :
    Foretold (type ≠ .void) (Llvm.emitSlice type dataPtr length)
      (fun value => value.shape = ⟨type, .register⟩) := by
  refine .andThen (.of_eq (.emitInsertvalue rfl) (by simp [hdata])) fun htype ptrReg _ => ?_
  refine .step (.of_eq (.emitInsertvalue rfl) ?_) fun _ _ => .pure rfl
  rw [hlength, htype]
  rfl

end Foretold

end Llvm

end Cnegative
