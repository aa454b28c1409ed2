import Cnegative.Backend.Runs
import Cnegative.Library.Segment

namespace Cnegative

open Library (Line Code Chain Frame Segment Fresh Flow)

namespace Llvm

/-! What shape of code the emitters print. -/

def EmitState.flow (state : EmitState) (defined : Set Nat) : Flow :=
  if state.terminated then none else some defined

@[simp] theorem EmitState.flow_open {state : EmitState} (hopen : state.terminated = false)
    (defined : Set Nat) : state.flow defined = some defined := by
  simp [flow, hopen]

/-- The code `emitter` prints is one segment where the registers in `known` are
written; `registers` says which of them its result stands for. -/
def Prints {α : Type} (known : Set Nat) (emitter : Emit α) (registers : α → Set Nat) : Prop :=
  ∀ ⦃state after : EmitState⦄ ⦃a : α⦄ ⦃code : Code Inst⦄ ⦃defined : Set Nat⦄,
    emitter state = some (a, code, after) → known ⊆ defined →
      ∃ defined', defined ⊆ defined' ∧ registers a ⊆ defined' ∧
        Segment state.nextTemp state.nextLabel (state.flow defined) code
          after.nextTemp after.nextLabel (after.flow defined')

/-- The same where a block is open. -/
def PrintsOpen {α : Type} (known : Set Nat) (emitter : Emit α) (registers : α → Set Nat) : Prop :=
  ∀ ⦃state after : EmitState⦄ ⦃a : α⦄ ⦃code : Code Inst⦄ ⦃defined : Set Nat⦄,
    emitter state = some (a, code, after) → state.terminated = false → known ⊆ defined →
      ∃ defined', defined ⊆ defined' ∧ registers a ⊆ defined' ∧
        Segment state.nextTemp state.nextLabel (some defined) code
          after.nextTemp after.nextLabel (after.flow defined')

/-- The same for an emitter that leaves the block open. -/
def Emits {α : Type} (known : Set Nat) (emitter : Emit α) (registers : α → Set Nat) : Prop :=
  ∀ ⦃state after : EmitState⦄ ⦃a : α⦄ ⦃code : Code Inst⦄ ⦃defined : Set Nat⦄,
    emitter state = some (a, code, after) → state.terminated = false → known ⊆ defined →
      after.terminated = false ∧
      ∃ defined', defined ⊆ defined' ∧ registers a ⊆ defined' ∧
        Segment state.nextTemp state.nextLabel (some defined) code
          after.nextTemp after.nextLabel (some defined')

namespace Emits

variable {α β : Type} {known : Set Nat}

theorem pure {registers : α → Set Nat} {a : α} (hregisters : registers a ⊆ known) :
    Emits known (pure a) registers := by
  intro state after b code defined hrun hopen hknown
  obtain ⟨rfl, rfl, rfl⟩ := Emit.pure_eq_some.mp hrun
  exact ⟨hopen, defined, subset_rfl, hregisters.trans hknown, .nil⟩

theorem fail {registers : α → Set Nat} : Emits known (Emit.fail : Emit α) registers := by
  intro state after a code defined hrun
  exact (Emit.fail_eq_some.mp hrun).elim

theorem ofOption {registers : α → Set Nat} {option : Option α}
    (hregisters : ∀ a, option = some a → registers a ⊆ known) :
    Emits known (Emit.ofOption option) registers := by
  intro state after a code defined hrun hopen hknown
  obtain ⟨hsome, rfl, rfl⟩ := Emit.ofOption_eq_some.mp hrun
  exact ⟨hopen, defined, subset_rfl, (hregisters a hsome).trans hknown, .nil⟩

theorem bind {first : Emit α} {next : α → Emit β} {registers : α → Set Nat}
    {registers' : β → Set Nat} (hfirst : Emits known first registers)
    (hnext : ∀ a, Emits (known ∪ registers a) (next a) registers') :
    Emits known (first >>= next) registers' := by
  intro state after b code defined hrun hopen hknown
  obtain ⟨a, before, middle, behind, hrunFirst, hrunNext, rfl⟩ := Emit.bind_eq_some.mp hrun
  obtain ⟨hopen', defined', hsubset', hregisters', hsegment'⟩ := hfirst hrunFirst hopen hknown
  obtain ⟨hopen'', defined'', hsubset'', hregisters'', hsegment''⟩ :=
    hnext a hrunNext hopen' (Set.union_subset (hknown.trans hsubset') hregisters')
  exact ⟨hopen'', defined'', hsubset'.trans hsubset'', hregisters'',
    hsegment'.append hsegment''⟩

theorem seq {first : Emit α} {next : α → Emit β} {registers : β → Set Nat}
    (hfirst : Emits known first (fun _ => ∅)) (hnext : ∀ a, Emits known (next a) registers) :
    Emits known (first >>= next) registers :=
  hfirst.bind fun a => by simpa using hnext a

theorem mono {emitter : Emit α} {known' : Set Nat} {registers registers' : α → Set Nat}
    (hemits : Emits known emitter registers) (hknown : known ⊆ known')
    (hregisters : ∀ a, registers' a ⊆ known' ∪ registers a) : Emits known' emitter registers' := by
  intro state after a code defined hrun hopen hknown'
  obtain ⟨hopen', defined', hsubset, hregisters', hsegment⟩ :=
    hemits hrun hopen (hknown.trans hknown')
  exact ⟨hopen', defined', hsubset,
    (hregisters a).trans (Set.union_subset (hknown'.trans hsubset) hregisters'), hsegment⟩

theorem weaken {emitter : Emit α} {known' : Set Nat} {registers : α → Set Nat}
    (hemits : Emits known emitter registers) (hknown : known ⊆ known') :
    Emits known' emitter registers :=
  hemits.mono hknown (fun _ => Set.subset_union_right)

theorem result {inst : Nat → Inst} (hopen : ∀ id, (inst id).isTerminator = false)
    (hresult : ∀ id, (inst id).result? = some id)
    (huses : ∀ id, ∀ register ∈ Library.Instruction.uses (inst id), register ∈ known)
    (htargets : ∀ id, (inst id).targets = []) :
    Emits known (Emit.result inst) (fun id => {id}) := by
  intro state after id code defined hrun hstate hknown
  obtain ⟨rfl, rfl, rfl⟩ := Emit.result_eq_some.mp hrun
  have hdefs : Library.Instruction.defs (inst state.nextTemp) = [state.nextTemp] :=
    congrArg Option.toList (hresult _)
  exact ⟨hstate, _, Set.subset_union_left, Set.subset_union_right, .define (hopen _)
    (fun register hregister => hknown (huses _ register hregister)) (htargets _) hdefs⟩

theorem write {inst : Inst} (hopen : inst.isTerminator = false) (hresult : inst.result? = none)
    (huses : ∀ register ∈ Library.Instruction.uses inst, register ∈ known)
    (htargets : inst.targets = []) :
    Emits known (Emit.write inst) (fun _ => ∅) := by
  intro state after _ code defined hrun hstate hknown
  obtain ⟨rfl, rfl⟩ := Emit.write_eq_some.mp hrun
  exact ⟨hstate, _, subset_rfl, Set.empty_subset _, .effect hopen
    (fun register hregister => hknown (huses register hregister)) htargets
    (congrArg Option.toList hresult)⟩

end Emits

/-! The registers a value, an address and a scope stand for. -/

def LlvmValue.regs (value : LlvmValue) : Set Nat := {register | register ∈ value.registers}

def Pointer.regs (pointer : Pointer) : Set Nat := {register | register ∈ pointer.registers}

def Scope.regs (scope : Scope) : Set Nat :=
  {register | ∃ name found, Chain.find? scope name = some found ∧ found.2.allocaId = register}

@[simp] theorem LlvmValue.regs_register (type : TypeRef) (id : Nat) :
    (LlvmValue.register type id).regs = {id} := by
  ext other
  exact List.mem_singleton

@[simp] theorem Pointer.regs_reg (id : Nat) : (Pointer.reg id).regs = {id} := by
  ext other
  exact List.mem_singleton

@[simp] theorem LlvmValue.regs_int (type : TypeRef) (value : BitVec 64) :
    (⟨type, .int value⟩ : LlvmValue).regs = ∅ := by
  ext register
  simp [regs, registers]

@[simp] theorem LlvmValue.regs_bool (type : TypeRef) (value : Bool) :
    (⟨type, .bool value⟩ : LlvmValue).regs = ∅ := by
  ext register
  simp [regs, registers]

@[simp] theorem LlvmValue.regs_null (type : TypeRef) :
    (⟨type, .null⟩ : LlvmValue).regs = ∅ := by
  ext register
  simp [regs, registers]

@[simp] theorem LlvmValue.regs_void (type : TypeRef) :
    (⟨type, .void⟩ : LlvmValue).regs = ∅ := by
  ext register
  simp [regs, registers]

@[simp] theorem LlvmValue.regs_asPointer (value : LlvmValue) :
    value.asPointer.regs = value.regs := by
  ext register
  cases hdata : value.data <;>
    simp [regs, registers, asPointer, Pointer.regs, Pointer.registers, hdata]

@[simp] theorem Pointer.regs_asData (type : TypeRef) (pointer : Pointer) :
    (⟨type, pointer.asData⟩ : LlvmValue).regs = pointer.regs := by
  ext register
  cases pointer <;> simp [regs, registers, asData, LlvmValue.regs, LlvmValue.registers]

theorem uses_subset {inst : Inst} {known : Set Nat}
    (hoperands : ∀ value ∈ inst.operands, value.regs ⊆ known)
    (hpointers : ∀ pointer ∈ inst.pointers, pointer.regs ⊆ known)
    (hsources : ∀ register ∈ inst.sources, register ∈ known) :
    ∀ register ∈ Library.Instruction.uses inst, register ∈ known := by
  intro register hregister
  change register ∈ inst.operands.flatMap LlvmValue.registers ++
    inst.pointers.flatMap Pointer.registers ++ inst.sources at hregister
  simp only [List.mem_append, List.mem_flatMap] at hregister
  rcases hregister with (⟨value, hvalue, hmem⟩ | ⟨pointer, hpointer, hmem⟩) | hmem
  · exact hoperands value hvalue hmem
  · exact hpointers pointer hpointer hmem
  · exact hsources register hmem

namespace Emits

variable {known : Set Nat}

theorem emitAlloca {type : TypeRef} : Emits known (Llvm.emitAlloca type) (fun id => {id}) :=
  .result (fun _ => rfl) (fun _ => rfl)
    (fun _ => uses_subset (by simp [Inst.operands]) (by simp [Inst.pointers])
      (by simp [Inst.sources])) (fun _ => rfl)

theorem emitStore {value : LlvmValue} {pointer : Pointer} (hvalue : value.regs ⊆ known)
    (hpointer : pointer.regs ⊆ known) :
    Emits known (Llvm.emitStore value pointer) (fun _ => ∅) :=
  .write rfl rfl (uses_subset (by simpa [Inst.operands] using hvalue)
    (by simpa [Inst.pointers] using hpointer) (by simp [Inst.sources])) rfl

theorem register {type : TypeRef} {inst : Nat → Inst}
    (hemits : Emits known (Emit.result inst) (fun id => {id})) :
    Emits known (do return LlvmValue.register type (← Emit.result inst)) LlvmValue.regs :=
  hemits.bind fun _ => .pure (by simp)

theorem emitLoad {type : TypeRef} {pointer : Pointer} (hpointer : pointer.regs ⊆ known) :
    Emits known (Llvm.emitLoad type pointer) LlvmValue.regs :=
  .register (.result (fun _ => rfl) (fun _ => rfl)
    (fun _ => uses_subset (by simp [Inst.operands]) (by simpa [Inst.pointers] using hpointer)
      (by simp [Inst.sources])) (fun _ => rfl))

theorem emitExtractvalue {aggregate : LlvmValue} {type : TypeRef} {index : Nat}
    (haggregate : aggregate.regs ⊆ known) :
    Emits known (Llvm.emitExtractvalue aggregate type index) LlvmValue.regs :=
  .register (.result (fun _ => rfl) (fun _ => rfl)
    (fun _ => uses_subset (by simpa [Inst.operands] using haggregate) (by simp [Inst.pointers])
      (by simp [Inst.sources])) (fun _ => rfl))

theorem emitInsertvalue {type : TypeRef} {aggregate : Option Nat} {element : LlvmValue}
    {index : Nat} (haggregate : ∀ id, aggregate = some id → id ∈ known)
    (helement : element.regs ⊆ known) :
    Emits known (Llvm.emitInsertvalue type aggregate element index) (fun id => {id}) :=
  .result (fun _ => rfl) (fun _ => rfl)
    (fun _ => uses_subset (by simpa [Inst.operands] using helement) (by simp [Inst.pointers])
      (by simpa [Inst.sources] using haggregate)) (fun _ => rfl)

theorem arrayGep {base : TypeRef} {pointer : Pointer} {index : LlvmValue}
    (hpointer : pointer.regs ⊆ known) (hindex : index.regs ⊆ known) :
    Emits known (Emit.result fun id => .arrayGep id base pointer index) (fun id => {id}) :=
  .result (fun _ => rfl) (fun _ => rfl)
    (fun _ => uses_subset (by simpa [Inst.operands] using hindex)
      (by simpa [Inst.pointers] using hpointer) (by simp [Inst.sources])) (fun _ => rfl)

theorem pointerGep {element : TypeRef} {pointer index : LlvmValue}
    (hpointer : pointer.regs ⊆ known) (hindex : index.regs ⊆ known) :
    Emits known (Emit.result fun id => .pointerGep id element pointer index) (fun id => {id}) :=
  .result (fun _ => rfl) (fun _ => rfl)
    (fun _ => uses_subset (by simp [Inst.operands, hpointer, hindex]) (by simp [Inst.pointers])
      (by simp [Inst.sources])) (fun _ => rfl)

theorem fieldGep {base : TypeRef} {pointer : Pointer} {field : Nat}
    (hpointer : pointer.regs ⊆ known) :
    Emits known (Emit.result fun id => .fieldGep id base pointer field) (fun id => {id}) :=
  .result (fun _ => rfl) (fun _ => rfl)
    (fun _ => uses_subset (by simp [Inst.operands]) (by simpa [Inst.pointers] using hpointer)
      (by simp [Inst.sources])) (fun _ => rfl)

theorem binary {type : TypeRef} {inst : Nat → Inst} {left right : LlvmValue}
    (hopen : ∀ id, (inst id).isTerminator = false) (hresult : ∀ id, (inst id).result? = some id)
    (hoperands : ∀ id, (inst id).operands = [left, right])
    (hpointers : ∀ id, (inst id).pointers = []) (hsources : ∀ id, (inst id).sources = [])
    (htargets : ∀ id, (inst id).targets = [])
    (hleft : left.regs ⊆ known) (hright : right.regs ⊆ known) :
    Emits known (do return LlvmValue.register type (← Emit.result inst)) LlvmValue.regs :=
  .register (.result hopen hresult
    (fun id => uses_subset (by rw [hoperands id]; simp [hleft, hright])
      (by rw [hpointers id]; simp) (by rw [hsources id]; simp)) htargets)

theorem emitBoolAnd {left right : LlvmValue} (hleft : left.regs ⊆ known)
    (hright : right.regs ⊆ known) :
    Emits known (Llvm.emitBoolAnd left right) LlvmValue.regs :=
  .binary (fun _ => rfl) (fun _ => rfl) (fun _ => rfl) (fun _ => rfl) (fun _ => rfl)
    (fun _ => rfl) hleft hright

theorem emitBoolNot {value : LlvmValue} (hvalue : value.regs ⊆ known) :
    Emits known (Llvm.emitBoolNot value) LlvmValue.regs := by
  unfold Llvm.emitBoolNot
  split
  · exact .pure (by simp [constantBool])
  · exact .register (.result (fun _ => rfl) (fun _ => rfl)
      (fun _ => uses_subset (by simpa [Inst.operands] using hvalue) (by simp [Inst.pointers])
        (by simp [Inst.sources])) (fun _ => rfl))

theorem emitIntSub {left right : LlvmValue} (hleft : left.regs ⊆ known)
    (hright : right.regs ⊆ known) : Emits known (Llvm.emitIntSub left right) LlvmValue.regs := by
  unfold Llvm.emitIntSub
  split
  · exact .pure (by simp [constantInt])
  · exact .binary (fun _ => rfl) (fun _ => rfl) (fun _ => rfl) (fun _ => rfl) (fun _ => rfl)
      (fun _ => rfl) hleft hright

theorem emitScalarEquality {left right : LlvmValue} (hleft : left.regs ⊆ known)
    (hright : right.regs ⊆ known) :
    Emits known (Llvm.emitScalarEquality left right) LlvmValue.regs :=
  .binary (fun _ => rfl) (fun _ => rfl) (fun _ => rfl) (fun _ => rfl) (fun _ => rfl)
    (fun _ => rfl) hleft hright

theorem emitStrEquality {left right : LlvmValue} (hleft : left.regs ⊆ known)
    (hright : right.regs ⊆ known) :
    Emits known (Llvm.emitStrEquality left right) LlvmValue.regs := by
  refine .bind (.result (fun _ => rfl) (fun _ => rfl)
    (fun _ => uses_subset (by simp [Inst.operands, hleft, hright]) (by simp [Inst.pointers])
      (by simp [Inst.sources])) (fun _ => rfl)) fun order => ?_
  exact .register (.result (fun _ => rfl) (fun _ => rfl)
    (fun _ => uses_subset (by simp [Inst.operands]) (by simp [Inst.pointers])
      (fun _ hregister => Or.inr (List.mem_singleton.mp hregister))) (fun _ => rfl))

theorem emitMemberEquality {left right : LlvmValue} {type : TypeRef} {index : Nat}
    {equality : LlvmValue → LlvmValue → Emit LlvmValue} (hleft : left.regs ⊆ known)
    (hright : right.regs ⊆ known)
    (hequality : ∀ {known : Set Nat} {left right : LlvmValue}, left.regs ⊆ known →
      right.regs ⊆ known → Emits known (equality left right) LlvmValue.regs) :
    Emits known (Llvm.emitMemberEquality left right type index equality) LlvmValue.regs := by
  refine .bind (.emitExtractvalue hleft) fun first => ?_
  refine .bind (.emitExtractvalue (hright.trans Set.subset_union_left)) fun second => ?_
  exact hequality (Set.subset_union_right.trans Set.subset_union_left) Set.subset_union_right

theorem emitAllEqual {items : List (Emit LlvmValue)}
    (hitems : ∀ item ∈ items, Emits known item LlvmValue.regs) :
    Emits known (Llvm.emitAllEqual items) LlvmValue.regs := by
  unfold Llvm.emitAllEqual
  have hstart : (constantBool true).regs ⊆ known := by simp [constantBool]
  generalize constantBool true = result at hstart
  induction items generalizing known result with
  | nil => exact .pure hstart
  | cons item rest ih =>
      rw [List.foldlM_cons]
      refine @bind _ _ known _ _ LlvmValue.regs LlvmValue.regs ?_ fun joined =>
        ih (fun other hother => ?_) joined Set.subset_union_right
      · refine .bind (hitems item (by simp)) fun itemEq => ?_
        split
        · exact .pure Set.subset_union_right
        · exact .emitBoolAnd (hstart.trans Set.subset_union_left) Set.subset_union_right
      · exact (hitems other (List.mem_cons_of_mem _ hother)).weaken Set.subset_union_left

theorem emitEqualityWith {onStruct : Name → Name → LlvmValue → LlvmValue → Emit LlvmValue}
    (honStruct : ∀ {known : Set Nat} {left right : LlvmValue} (moduleName name : Name),
      left.regs ⊆ known → right.regs ⊆ known →
        Emits known (onStruct moduleName name left right) LlvmValue.regs)
    {type : TypeRef} {left right : LlvmValue} (hleft : left.regs ⊆ known)
    (hright : right.regs ⊆ known) :
    Emits known (Llvm.emitEqualityWith onStruct type left right) LlvmValue.regs := by
  induction type generalizing known left right with
  | int | u8 | bool | ptr | null => exact .emitScalarEquality hleft hright
  | str => exact .emitStrEquality hleft hright
  | result inner ih =>
      refine .bind (.emitMemberEquality hleft hright .emitScalarEquality) fun okEq => ?_
      refine .bind (.emitMemberEquality (hleft.trans Set.subset_union_left)
        (hright.trans Set.subset_union_left) ih) fun valueEq => ?_
      exact .emitBoolAnd (Set.subset_union_right.trans Set.subset_union_left)
        Set.subset_union_right
  | slice inner ih =>
      refine .bind (.emitMemberEquality hleft hright .emitScalarEquality) fun ptrEq => ?_
      refine .bind (.emitMemberEquality (hleft.trans Set.subset_union_left)
        (hright.trans Set.subset_union_left) .emitScalarEquality) fun lenEq => ?_
      exact .emitBoolAnd (Set.subset_union_right.trans Set.subset_union_left)
        Set.subset_union_right
  | array inner size ih =>
      refine .emitAllEqual ?_
      intro item hitem
      obtain ⟨index, -, rfl⟩ := List.mem_map.mp hitem
      exact .emitMemberEquality hleft hright ih
  | named moduleName name => exact honStruct moduleName name hleft hright
  | void | unknown => exact .fail

theorem emitStructEquality {structs : StructTable} {depth : Nat} {moduleName name : Name}
    {left right : LlvmValue} (hleft : left.regs ⊆ known) (hright : right.regs ⊆ known) :
    Emits known (Llvm.emitStructEquality structs depth moduleName name left right)
      LlvmValue.regs := by
  induction depth generalizing known moduleName name left right with
  | zero => exact .fail
  | succ depth ih =>
      refine .seq (.ofOption fun _ _ => Set.empty_subset _) fun decl => .emitAllEqual ?_
      intro item hitem
      obtain ⟨⟨field, index⟩, -, rfl⟩ := List.mem_map.mp hitem
      refine .emitMemberEquality hleft hright ?_
      intro known left right hleft hright
      exact .emitEqualityWith (fun _ _ => ih) hleft hright

theorem emitValueEquality {structs : StructTable} {left right : LlvmValue} {type : TypeRef}
    (hleft : left.regs ⊆ known) (hright : right.regs ⊆ known) :
    Emits known (Llvm.emitValueEquality structs left right type) LlvmValue.regs :=
  .emitEqualityWith (fun _ _ => .emitStructEquality) hleft hright

theorem emitSizeof {type : TypeRef} : Emits known (Llvm.emitSizeof type) LlvmValue.regs := by
  refine .bind (.result (fun _ => rfl) (fun _ => rfl)
    (fun _ => uses_subset (by simp [Inst.operands]) (by simp [Inst.pointers])
      (by simp [Inst.sources])) (fun _ => rfl)) fun gep => ?_
  exact .register (.result (fun _ => rfl) (fun _ => rfl)
    (fun _ => uses_subset (by simp [Inst.operands]) (by simp [Inst.pointers])
      (fun _ hregister => Or.inr (List.mem_singleton.mp hregister))) (fun _ => rfl))

theorem callResult {type : TypeRef} {symbol : Symbol} {arguments : List LlvmValue}
    (harguments : ∀ argument ∈ arguments, argument.regs ⊆ known) :
    Emits known (Emit.result fun id => .call (some id) type symbol arguments) (fun id => {id}) :=
  .result (fun _ => rfl) (fun _ => rfl)
    (fun _ => uses_subset (by simpa [Inst.operands] using harguments) (by simp [Inst.pointers])
      (by simp [Inst.sources])) (fun _ => rfl)

theorem callVoid {type : TypeRef} {symbol : Symbol} {arguments : List LlvmValue}
    (harguments : ∀ argument ∈ arguments, argument.regs ⊆ known) :
    Emits known (Emit.write (.call none type symbol arguments)) (fun _ => ∅) :=
  .write rfl rfl (uses_subset (by simpa [Inst.operands] using harguments)
    (by simp [Inst.pointers]) (by simp [Inst.sources])) rfl

theorem emitCall {type : TypeRef} {symbol : Symbol} {arguments : List LlvmValue}
    (harguments : ∀ argument ∈ arguments, argument.regs ⊆ known) :
    Emits known (Llvm.emitCall type symbol arguments) LlvmValue.regs := by
  unfold Llvm.emitCall
  split
  · exact .bind (.callVoid harguments) fun _ => .pure (by simp)
  · exact .register (.callResult harguments)

theorem emitPrintCall {type : TypeRef} {symbol : String} {argument : LlvmValue}
    (hargument : argument.regs ⊆ known) :
    Emits known (Llvm.emitPrintCall type symbol argument) LlvmValue.regs :=
  .bind (.callVoid (by simpa using hargument)) fun _ => .pure (by simp)

theorem emitPrint {type : TypeRef} {isPrint : Bool} {argument : LlvmValue}
    (hargument : argument.regs ⊆ known) :
    Emits known (Llvm.emitPrint type isPrint argument) LlvmValue.regs := by
  unfold Llvm.emitPrint
  split
  · exact .emitPrintCall hargument
  · refine .bind (.result (fun _ => rfl) (fun _ => rfl)
      (fun _ => uses_subset (by simpa [Inst.operands] using hargument) (by simp [Inst.pointers])
        (by simp [Inst.sources])) (fun _ => rfl)) fun widened => .emitPrintCall ?_
    rw [LlvmValue.regs_register]
    exact Set.subset_union_right
  · exact .emitPrintCall hargument
  · exact .emitPrintCall hargument
  · exact .fail

theorem emitBuiltinCall {structs : StructTable} {type : TypeRef} {moduleName functionName : Name}
    {arguments : List LlvmValue} (harguments : ∀ argument ∈ arguments, argument.regs ⊆ known) :
    Emits known (Llvm.emitBuiltinCall structs type moduleName functionName arguments)
      LlvmValue.regs := by
  unfold Llvm.emitBuiltinCall
  split
  · split
    · exact .fail
    · exact .emitCall fun argument hargument => harguments argument (List.mem_of_mem_take hargument)
  · split
    · exact .emitValueEquality (harguments _ (by simp)) (harguments _ (by simp))
    · exact .emitPrint (harguments _ (by simp))
    · exact .emitPrint (harguments _ (by simp))
    · exact .fail

theorem emitBinary {structs : StructTable} {type : TypeRef} {op : BinaryOp}
    {left right : LlvmValue} (hleft : left.regs ⊆ known) (hright : right.regs ⊆ known) :
    Emits known (Llvm.emitBinary structs type op left right) LlvmValue.regs := by
  unfold Llvm.emitBinary
  split
  · exact .emitValueEquality hleft hright
  · exact .bind (.emitValueEquality hleft hright) fun _ => .emitBoolNot Set.subset_union_right
  · split
    · exact .binary (fun _ => rfl) (fun _ => rfl) (fun _ => rfl) (fun _ => rfl) (fun _ => rfl)
        (fun _ => rfl) hleft hright
    · exact .binary (fun _ => rfl) (fun _ => rfl) (fun _ => rfl) (fun _ => rfl) (fun _ => rfl)
        (fun _ => rfl) hleft hright
    · exact .fail

theorem emitUnary {type : TypeRef} {op : UnaryOp} {operand : LlvmValue}
    (hoperand : operand.regs ⊆ known) :
    Emits known (Llvm.emitUnary type op operand) LlvmValue.regs := by
  cases op with
  | negate =>
      exact .binary (fun _ => rfl) (fun _ => rfl) (fun _ => rfl) (fun _ => rfl) (fun _ => rfl)
        (fun _ => rfl) (by simp [constantInt]) hoperand
  | not =>
      exact .register (.result (fun _ => rfl) (fun _ => rfl)
        (fun _ => uses_subset (by simpa [Inst.operands] using hoperand) (by simp [Inst.pointers])
          (by simp [Inst.sources])) (fun _ => rfl))

theorem emitSlice {type : TypeRef} {dataPtr length : LlvmValue} (hdata : dataPtr.regs ⊆ known)
    (hlength : length.regs ⊆ known) :
    Emits known (Llvm.emitSlice type dataPtr length) LlvmValue.regs := by
  refine .bind (.emitInsertvalue (by simp) hdata) fun ptrReg => ?_
  exact .register (.emitInsertvalue (fun _ hid => Or.inr (Option.some.inj hid).symm)
    (hlength.trans Set.subset_union_left))

end Emits

namespace PrintsOpen

variable {α β : Type} {known : Set Nat} {emitter : Emit α}

theorem of_emits {registers : α → Set Nat} (hemits : Emits known emitter registers) :
    PrintsOpen known emitter registers := by
  intro state after a code defined hrun hopen hknown
  obtain ⟨hopen', defined', hsubset, hregisters, hsegment⟩ := hemits hrun hopen hknown
  exact ⟨defined', hsubset, hregisters, by rwa [EmitState.flow_open hopen']⟩

theorem of_prints {registers : α → Set Nat} (hprints : Prints known emitter registers) :
    PrintsOpen known emitter registers := by
  intro state after a code defined hrun hopen hknown
  have hresult := hprints hrun hknown
  rwa [EmitState.flow_open hopen] at hresult

theorem bind {next : α → Emit β} {registers : α → Set Nat} {registers' : β → Set Nat}
    (hfirst : Emits known emitter registers)
    (hnext : ∀ a, PrintsOpen (known ∪ registers a) (next a) registers') :
    PrintsOpen known (emitter >>= next) registers' := by
  intro state after b code defined hrun hopen hknown
  obtain ⟨a, before, middle, behind, hrunFirst, hrunNext, rfl⟩ := Emit.bind_eq_some.mp hrun
  obtain ⟨hopen', defined', hsubset', hregisters', hsegment'⟩ := hfirst hrunFirst hopen hknown
  obtain ⟨defined'', hsubset'', hregisters'', hsegment''⟩ :=
    hnext a hrunNext hopen' (Set.union_subset (hknown.trans hsubset') hregisters')
  exact ⟨defined'', hsubset'.trans hsubset'', hregisters'', hsegment'.append hsegment''⟩

theorem seq {next : α → Emit β} {registers : β → Set Nat}
    (hfirst : Emits known emitter (fun _ => ∅)) (hnext : ∀ a, PrintsOpen known (next a) registers) :
    PrintsOpen known (emitter >>= next) registers :=
  bind hfirst fun a => by simpa using hnext a

theorem weaken {known' : Set Nat} {registers : α → Set Nat}
    (hprints : PrintsOpen known emitter registers) (hknown : known ⊆ known') :
    PrintsOpen known' emitter registers :=
  fun _ _ _ _ _ hrun hopen hknown' => hprints hrun hopen (hknown.trans hknown')

theorem andReturn {registers : α → Set Nat} {registers' : β → Set Nat} {b : β}
    (hemitter : PrintsOpen known emitter registers) (hb : registers' b ⊆ known) :
    PrintsOpen known (do let _ ← emitter; return b) registers' := by
  intro state after b' code defined hrun hopen hknown
  obtain ⟨a, before, middle, behind, hrunFirst, hrunNext, rfl⟩ := Emit.bind_eq_some.mp hrun
  obtain ⟨rfl, rfl, rfl⟩ := Emit.pure_eq_some.mp hrunNext
  obtain ⟨defined', hsubset, -, hsegment⟩ := hemitter hrunFirst hopen hknown
  exact ⟨defined', hsubset, hb.trans (hknown.trans hsubset), by simpa using hsegment⟩

end PrintsOpen

end Llvm

end Cnegative
