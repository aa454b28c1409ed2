import Cnegative.Backend.Emits

namespace Cnegative

open Library (Line Code Chain Frame Segment Fresh Flow IsJump IsBranch Leaves)

namespace Llvm

/-! Whatever `emitFunction` prints is well formed as far as labels, blocks and
registers go. -/

theorem regs_constantInt (value : BitVec 64) (known : Set Nat) :
    (constantInt value).regs ⊆ known := by
  simp [constantInt]

theorem isJump_br (target : Nat) : IsJump (Inst.br target) target :=
  ⟨rfl, rfl, rfl, rfl⟩

theorem isBranch_condBr {condition : LlvmValue} {defined : Set Nat}
    (hcondition : condition.regs ⊆ defined) (first second thenLabel elseLabel : Nat)
    (hthen : thenLabel = first ∨ thenLabel = second)
    (helse : elseLabel = first ∨ elseLabel = second) :
    IsBranch (Inst.condBr condition thenLabel elseLabel) defined first second where
  isTerminator := rfl
  uses := uses_subset (by simpa [Inst.operands] using hcondition) (by simp [Inst.pointers])
    (by simp [Inst.sources])
  defs := rfl
  targets := by
    intro target htarget
    change target ∈ [thenLabel, elseLabel] at htarget
    simp only [List.mem_cons, List.not_mem_nil, or_false] at htarget
    cases htarget with
    | inl heq => exact heq ▸ hthen
    | inr heq => exact heq ▸ helse

section

variable {registers labels : Nat} {defined : Set Nat}

theorem segment_alloca (type : TypeRef) :
    Segment registers labels (some defined) [.inst (Inst.alloca registers type)] (registers + 1)
      labels (some (defined ∪ {registers})) :=
  .define rfl (uses_subset (by simp [Inst.operands]) (by simp [Inst.pointers])
    (by simp [Inst.sources])) rfl rfl

theorem segment_load (type : TypeRef) {slot : Nat} (hslot : slot ∈ defined) :
    Segment registers labels (some defined) [.inst (Inst.load registers type (.reg slot))]
      (registers + 1) labels (some (defined ∪ {registers})) :=
  .define rfl (uses_subset (by simp [Inst.operands])
    (by simpa [Inst.pointers] using Set.singleton_subset_iff.mpr hslot)
    (by simp [Inst.sources])) rfl rfl

theorem segment_store {value : LlvmValue} {slot : Nat} (hvalue : value.regs ⊆ defined)
    (hslot : slot ∈ defined) :
    Segment registers labels (some defined) [.inst (Inst.store value (.reg slot))]
      registers labels (some defined) :=
  .effect rfl (uses_subset (by simpa [Inst.operands] using hvalue)
    (by simpa [Inst.pointers] using Set.singleton_subset_iff.mpr hslot)
    (by simp [Inst.sources])) rfl rfl

end

theorem segment_compare (registers labels : Nat) {defined : Set Nat} (type : TypeRef)
    {iterPtr endPtr : Nat} (hiter : iterPtr ∈ defined) (hend : endPtr ∈ defined) :
    Segment registers labels (some defined)
      [.inst (Inst.load registers type (.reg iterPtr)),
        .inst (Inst.load (registers + 1) type (.reg endPtr)),
        .inst (Inst.icmp (registers + 2) .slt (.register type registers)
          (.register type (registers + 1)))]
      (registers + 3) labels
      (some (defined ∪ {registers} ∪ {registers + 1} ∪ {registers + 2})) := by
  refine (segment_load type hiter).append ((segment_load type (Or.inl hend)).append
    (.define rfl ?_ rfl rfl))
  refine uses_subset ?_ (by simp [Inst.pointers]) (by simp [Inst.sources])
  intro value hvalue
  simp only [Inst.operands, List.mem_cons, List.not_mem_nil, or_false] at hvalue
  rcases hvalue with rfl | rfl
  · rw [LlvmValue.regs_register]
    exact fun _ hmem => Or.inl (Or.inr hmem)
  · rw [LlvmValue.regs_register]
    exact Set.subset_union_right

/-- A slot that both sides of a branch store their value to, and its contents. -/
theorem segment_choice {registers labels registers₁ labels₁ registers₂ labels₂ registers₃ labels₃ :
      Nat} (type : TypeRef) {branch : Inst} {testCode thenCode elseCode : Code Inst}
    {defined testDefined thenDefined elseDefined : Set Nat} (thenValue elseValue : LlvmValue)
    (htest : Segment (registers + 1) (labels + 3) (some (defined ∪ {registers})) testCode
      registers₁ labels₁ (some testDefined))
    (htestSubset : defined ∪ {registers} ⊆ testDefined)
    (hbranch : IsBranch branch testDefined labels (labels + 1))
    (hthen : Segment registers₁ labels₁ (some testDefined) thenCode registers₂ labels₂
      (some thenDefined))
    (hthenSubset : testDefined ⊆ thenDefined) (hthenValue : thenValue.regs ⊆ thenDefined)
    (helse : Segment registers₂ labels₂ (some testDefined) elseCode registers₃ labels₃
      (some elseDefined))
    (helseSubset : testDefined ⊆ elseDefined) (helseValue : elseValue.regs ⊆ elseDefined) :
    Segment registers labels (some defined)
      ([.inst (.alloca registers type)] ++ testCode ++ [.inst branch, .label labels] ++
        thenCode ++ [.inst (.store thenValue (.reg registers)), .inst (.br (labels + 2)),
          .label (labels + 1)] ++
        elseCode ++ [.inst (.store elseValue (.reg registers)), .inst (.br (labels + 2)),
          .label (labels + 2), .inst (.load registers₃ type (.reg registers))])
      (registers₃ + 1) labels₃ (some (testDefined ∪ {registers₃})) := by
  have hslot : registers ∈ testDefined := htestSubset (Or.inr rfl)
  have hdiamond := Segment.diamond ((segment_alloca type).append htest) hbranch
    (hthen.append (segment_store hthenValue (hthenSubset hslot)))
    (.jump hthenSubset (isJump_br _))
    (helse.append (segment_store helseValue (helseSubset hslot)))
    (.jump helseSubset (isJump_br _))
  simpa using hdiamond.append (segment_load type hslot)

theorem lowerShortCircuit_emits {known : Set Nat} {type : TypeRef} {left right : Emit LlvmValue}
    {isAnd : Bool} (hleft : Emits known left LlvmValue.regs)
    (hright : Emits known right LlvmValue.regs) :
    Emits known (lowerShortCircuit type left right isAnd) LlvmValue.regs := by
  intro state after value code defined hrun hopen hknown
  obtain ⟨leftValue, leftCode, middle, rightValue, rightCode, middle', hleftRun, hrightRun, rfl,
    rfl, rfl⟩ := lowerShortCircuit_eq_some hrun
  have hslotSubset : defined ⊆ defined ∪ {state.nextTemp} := Set.subset_union_left
  obtain ⟨-, leftDefined, hleftSubset, hleftRegs, hleftSegment⟩ :=
    hleft hleftRun hopen (hknown.trans hslotSubset)
  have hknownLeft := (hknown.trans hslotSubset).trans hleftSubset
  obtain ⟨-, rightDefined, hrightSubset, hrightRegs, hrightSegment⟩ :=
    hright hrightRun rfl hknownLeft
  have hbranch := isBranch_condBr hleftRegs state.nextLabel (state.nextLabel + 1)
    (if isAnd then state.nextLabel else state.nextLabel + 1)
    (if isAnd then state.nextLabel + 1 else state.nextLabel)
    (by cases isAnd <;> simp) (by cases isAnd <;> simp)
  have hchoice := segment_choice type rightValue ⟨type, .bool (!isAnd)⟩ hleftSegment hleftSubset
    hbranch hrightSegment hrightSubset hrightRegs .nil subset_rfl (by simp)
  refine ⟨rfl, leftDefined ∪ {middle'.nextTemp},
    hslotSubset.trans (hleftSubset.trans Set.subset_union_left), ?_, ?_⟩
  · rw [LlvmValue.regs_register]
    exact Set.subset_union_right
  · exact hchoice

theorem lowerIfExpression_emits {known : Set Nat} {type : TypeRef}
    {condition thenExpr elseExpr : Emit LlvmValue}
    (hcondition : Emits known condition LlvmValue.regs)
    (hthen : Emits known thenExpr LlvmValue.regs) (helse : Emits known elseExpr LlvmValue.regs) :
    Emits known (lowerIfExpression type condition thenExpr elseExpr) LlvmValue.regs := by
  intro state after value code defined hrun hopen hknown
  obtain ⟨test, testCode, middle, thenValue, thenCode, middle', elseValue, elseCode, middle'',
    htestRun, hthenRun, helseRun, rfl, rfl, rfl⟩ := lowerIfExpression_eq_some hrun
  have hslotSubset : defined ⊆ defined ∪ {state.nextTemp} := Set.subset_union_left
  obtain ⟨-, testDefined, htestSubset, htestRegs, htestSegment⟩ :=
    hcondition htestRun hopen (hknown.trans hslotSubset)
  have hknownTest := (hknown.trans hslotSubset).trans htestSubset
  obtain ⟨-, thenDefined, hthenSubset, hthenRegs, hthenSegment⟩ :=
    hthen hthenRun rfl hknownTest
  obtain ⟨-, elseDefined, helseSubset, helseRegs, helseSegment⟩ :=
    helse helseRun rfl hknownTest
  have hbranch := isBranch_condBr htestRegs state.nextLabel (state.nextLabel + 1) _ _
    (Or.inl rfl) (Or.inr rfl)
  have hchoice := segment_choice type thenValue elseValue htestSegment htestSubset hbranch hthenSegment
    hthenSubset hthenRegs helseSegment helseSubset helseRegs
  refine ⟨rfl, testDefined ∪ {middle''.nextTemp},
    hslotSubset.trans (htestSubset.trans Set.subset_union_left), ?_, ?_⟩
  · rw [LlvmValue.regs_register]
    exact Set.subset_union_right
  · exact hchoice

/-! Scopes. -/

namespace Scope

@[simp] theorem regs_push (scope : Scope) : scope.push.regs = scope.regs := rfl

theorem regs_define (scope : Scope) (name : Name) (type : TypeRef) (allocaId : Nat) :
    (scope.define name type allocaId).regs ⊆ scope.regs ∪ {allocaId} := by
  rintro register ⟨other, found, hfind, rfl⟩
  cases scope with
  | nil => simp [define, Chain.define] at hfind
  | cons frame outer =>
      rw [define, Chain.find?_define] at hfind
      split at hfind
      · simp only [Option.some.injEq] at hfind
        subst hfind
        exact Or.inr rfl
      · exact Or.inl ⟨other, found, hfind, rfl⟩

theorem lookup_emits {scope : Scope} {name : Name} {known : Set Nat}
    (hscope : scope.regs ⊆ known) :
    Emits known (scope.lookup name) (fun binding => {binding.allocaId}) := by
  refine .ofOption ?_
  intro binding hbinding
  obtain ⟨found, hfind, rfl⟩ := Option.map_eq_some_iff.mp hbinding
  exact Set.singleton_subset_iff.mpr (hscope ⟨name, found, hfind, rfl⟩)

end Scope

/-! Expressions. -/

def Address.regs (address : Address) : Set Nat := address.pointer.regs

structure Lowered.Emits (known : Set Nat) (lowered : Lowered) : Prop where
  value : Llvm.Emits known lowered.value LlvmValue.regs
  address : Llvm.Emits known lowered.address Address.regs

namespace Lowered

variable {known : Set Nat}

theorem ofValue_emits {type : TypeRef} {value : Emit LlvmValue}
    (hvalue : Llvm.Emits known value LlvmValue.regs) : (ofValue type value).Emits known where
  value := hvalue
  address := by
    refine hvalue.bind fun stored => ?_
    refine .bind .emitAlloca fun id => ?_
    refine .seq (.emitStore (Set.subset_union_right.trans Set.subset_union_left) ?_) fun _ => ?_
    · rw [Pointer.regs_reg]
      exact Set.subset_union_right
    · refine .pure ?_
      rw [Address.regs, Pointer.regs_reg]
      exact Set.subset_union_right

theorem ofAddress_emits {address : Emit Address}
    (haddress : Llvm.Emits known address Address.regs) : (ofAddress address).Emits known where
  value := haddress.bind fun _ => .emitLoad Set.subset_union_right
  address := haddress

end Lowered

section

variable (context : EmitContext) (scope : Scope)

mutual

theorem lowerExpression_emits (known : Set Nat) (hscope : scope.regs ⊆ known) :
    (expression : IrExpr) → (lowerExpression context scope expression).Emits known
  | .int _ _ => Lowered.ofValue_emits (.pure (by simp))
  | .bool _ _ => Lowered.ofValue_emits (.pure (by simp))
  | .null _ => Lowered.ofValue_emits (.pure (by simp))
  | .string _ _ => by
      refine Lowered.ofValue_emits (.seq (.ofOption fun _ _ => Set.empty_subset _) fun _ => ?_)
      exact .register (.result (fun _ => rfl) (fun _ => rfl)
        (fun _ => uses_subset (by simp [Inst.operands]) (by simp [Inst.pointers])
          (by simp [Inst.sources])) (fun _ => rfl))
  | .local _ name => by
      refine Lowered.ofAddress_emits (.bind (Scope.lookup_emits hscope) fun binding => .pure ?_)
      rw [Address.regs, Pointer.regs_reg]
      exact Set.subset_union_right
  | .unary _ _ operand =>
      Lowered.ofValue_emits (.bind (lowerExpression_emits known hscope operand).value
        fun _ => .emitUnary Set.subset_union_right)
  | .binary _ op left right => by
      have hleft := (lowerExpression_emits known hscope left).value
      have hright := (lowerExpression_emits known hscope right).value
      refine Lowered.ofValue_emits ?_
      split
      · exact lowerShortCircuit_emits hleft hright
      · exact lowerShortCircuit_emits hleft hright
      · refine .bind hleft fun leftValue => ?_
        refine .bind (hright.weaken Set.subset_union_left) fun rightValue => ?_
        exact .emitBinary (Set.subset_union_right.trans Set.subset_union_left)
          Set.subset_union_right
  | .ifExpr _ condition thenExpr elseExpr =>
      Lowered.ofValue_emits (lowerIfExpression_emits
        (lowerExpression_emits known hscope condition).value
        (lowerExpression_emits known hscope thenExpr).value
        (lowerExpression_emits known hscope elseExpr).value)
  | .call _ target _ _ arguments => by
      have harguments := lowerArguments_emits known hscope arguments
      refine Lowered.ofValue_emits ?_
      split
      · split
        · exact .fail
        · refine .bind harguments fun values => .emitBuiltinCall fun value hvalue => ?_
          exact fun register hregister => Or.inr ⟨value, hvalue, hregister⟩
      · split
        · exact .fail
        · refine .bind harguments fun values => .emitCall fun value hvalue => ?_
          exact fun register hregister => Or.inr ⟨value, hvalue, hregister⟩
  | .arrayLiteral type items => by
      refine Lowered.ofValue_emits (.bind (lowerItems_emits known hscope type 0 none (by simp) items)
        fun found => ?_)
      split
      · refine .pure ?_
        rw [LlvmValue.regs_register]
        exact Set.singleton_subset_iff.mpr (Or.inr rfl)
      · exact .fail
  | .sliceFromArray _ base => by
      have hbase := (lowerExpression_emits known hscope base).address
      refine Lowered.ofValue_emits (.bind hbase fun baseAddress => ?_)
      refine .bind (.arrayGep Set.subset_union_right (by simp [constantInt])) fun dataReg => ?_
      refine .emitSlice ?_ (by simp [constantInt])
      rw [LlvmValue.regs_register]
      exact Set.subset_union_right
  | .index _ base index => by
      have hindex := (lowerExpression_emits known hscope index).value
      have hvalue := (lowerExpression_emits known hscope base).value
      have haddress := (lowerExpression_emits known hscope base).address
      refine Lowered.ofAddress_emits (.bind hindex fun indexValue => ?_)
      split
      · refine .bind (hvalue.weaken Set.subset_union_left) fun sliceValue => ?_
        refine .bind (.emitExtractvalue Set.subset_union_right) fun dataPtr => ?_
        refine .bind (.pointerGep Set.subset_union_right ?_) fun id => .pure ?_
        · exact Set.subset_union_right.trans
            (Set.subset_union_left.trans Set.subset_union_left)
        · rw [Address.regs, Pointer.regs_reg]
          exact Set.subset_union_right
      · refine .bind (haddress.weaken Set.subset_union_left) fun baseAddress => ?_
        refine .bind (.arrayGep Set.subset_union_right ?_) fun id => .pure ?_
        · exact Set.subset_union_right.trans Set.subset_union_left
        · rw [Address.regs, Pointer.regs_reg]
          exact Set.subset_union_right
  | .sliceView type base start stop => by
      have hvalue := (lowerExpression_emits known hscope base).value
      have haddress := (lowerExpression_emits known hscope base).address
      refine Lowered.ofValue_emits (.bind
        (lowerBound_emits known hscope _ (.pure (by simp [constantInt])) start)
        fun startValue => ?_)
      split
      · refine .bind (haddress.weaken Set.subset_union_left) fun baseAddress => ?_
        refine .bind (.arrayGep Set.subset_union_right
          fun _ hmem => Or.inl (Or.inr hmem)) fun dataReg => ?_
        refine .bind (lowerBound_emits _ (fun _ hmem => Or.inl (Or.inl (Or.inl (hscope hmem)))) _
          (.pure (regs_constantInt _ _)) stop) fun endValue => ?_
        refine .bind (.emitIntSub Set.subset_union_right
          fun _ hmem => Or.inl (Or.inl (Or.inl (Or.inr hmem)))) fun length => ?_
        refine .emitSlice ?_ Set.subset_union_right
        rw [LlvmValue.regs_register]
        exact fun _ hmem => Or.inl (Or.inl (Or.inr hmem))
      · refine .bind (hvalue.weaken Set.subset_union_left) fun baseSlice => ?_
        refine .bind (.emitExtractvalue Set.subset_union_right) fun basePtr => ?_
        refine .bind (.pointerGep Set.subset_union_right
          fun _ hmem => Or.inl (Or.inl (Or.inr hmem))) fun dataReg => ?_
        refine .bind (lowerBound_emits _
          (fun _ hmem => Or.inl (Or.inl (Or.inl (Or.inl (hscope hmem))))) _
          (.emitExtractvalue fun _ hmem => Or.inl (Or.inl (Or.inr hmem))) stop)
          fun endValue => ?_
        refine .bind (.emitIntSub Set.subset_union_right
          fun _ hmem => Or.inl (Or.inl (Or.inl (Or.inl (Or.inr hmem))))) fun length => ?_
        refine .emitSlice ?_ Set.subset_union_right
        rw [LlvmValue.regs_register]
        exact fun _ hmem => Or.inl (Or.inl (Or.inr hmem))
  | .field _ base _ => by
      have hvalue := (lowerExpression_emits known hscope base).value
      have haddress := (lowerExpression_emits known hscope base).address
      refine Lowered.ofAddress_emits ?_
      split
      · refine .bind hvalue fun baseValue => .pure ?_
        rw [Address.regs, LlvmValue.regs_asPointer]
        exact Set.subset_union_right
      · refine .bind haddress fun baseAddress => ?_
        refine .seq (.ofOption fun _ _ => Set.empty_subset _) fun field => ?_
        refine .bind (.fieldGep Set.subset_union_right) fun id => .pure ?_
        rw [Address.regs, Pointer.regs_reg]
        exact Set.subset_union_right
  | .structLiteral type _ _ fields => by
      refine Lowered.ofValue_emits (.seq (.ofOption fun _ _ => Set.empty_subset _) fun decl => ?_)
      refine .bind (lowerFields_emits known hscope decl type none (by simp) fields) fun found => ?_
      split
      · refine .pure ?_
        rw [LlvmValue.regs_register]
        exact Set.singleton_subset_iff.mpr (Or.inr rfl)
      · exact .fail
  | .ok _ value => by
      refine Lowered.ofValue_emits
        (.bind (lowerExpression_emits known hscope value).value fun innerValue => ?_)
      refine .bind (.emitInsertvalue (by simp) (by simp [constantBool])) fun okReg => ?_
      exact .register (.emitInsertvalue (fun _ hid => Or.inr (Option.some.inj hid).symm)
        (Set.subset_union_right.trans Set.subset_union_left))
  | .err _ =>
      Lowered.ofValue_emits (.register (.emitInsertvalue (by simp) (by simp [constantBool])))
  | .alloc _ _ => by
      refine Lowered.ofValue_emits (.bind .emitSizeof fun size => .register (.callResult ?_))
      simp
  | .zalloc _ _ _ => by
      refine Lowered.ofValue_emits (.bind .emitSizeof fun size => ?_)
      refine .bind (Scope.lookup_emits (hscope.trans Set.subset_union_left)) fun binding => ?_
      refine .bind (.emitLoad ?_) fun zone => .emitCall ?_
      · rw [Pointer.regs_reg]
        exact Set.subset_union_right
      · intro argument hargument
        simp only [List.mem_cons, List.not_mem_nil, or_false] at hargument
        cases hargument with
        | inl heq => exact heq ▸ Set.subset_union_right
        | inr heq =>
            rw [heq]
            exact (Set.subset_union_right.trans Set.subset_union_left).trans Set.subset_union_left
  | .addr _ target => by
      have htarget := (lowerExpression_emits known hscope target).address
      refine Lowered.ofValue_emits ?_
      split
      · refine .bind htarget fun address => .pure ?_
        rw [Pointer.regs_asData]
        exact Set.subset_union_right
      · exact .fail
  | .deref _ target => by
      refine Lowered.ofAddress_emits
        (.bind (lowerExpression_emits known hscope target).value fun targetValue => .pure ?_)
      rw [Address.regs, LlvmValue.regs_asPointer]
      exact Set.subset_union_right

theorem lowerArguments_emits (known : Set Nat) (hscope : scope.regs ⊆ known) :
    (arguments : List IrExpr) → Emits known (lowerArguments context scope arguments)
      (fun values => {register | ∃ value ∈ values, register ∈ value.regs})
  | [] => .pure (by simp)
  | argument :: rest => by
      refine .bind (lowerExpression_emits known hscope argument).value fun first => ?_
      refine .bind ((lowerArguments_emits known hscope rest).weaken Set.subset_union_left)
        fun remaining => .pure ?_
      rintro register ⟨value, hvalue, hregister⟩
      cases List.mem_cons.mp hvalue with
      | inl heq => exact Or.inl (Or.inr (heq ▸ hregister))
      | inr hmem => exact Or.inr ⟨value, hmem, hregister⟩

theorem lowerItems_emits (known : Set Nat) (hscope : scope.regs ⊆ known) (type : TypeRef)
    (index : Nat) (aggregate : Option Nat) (haggregate : ∀ id, aggregate = some id → id ∈ known) :
    (items : List IrExpr) → Emits known (lowerItems context scope type index aggregate items)
      (fun found => {register | found = some register})
  | [] => .pure haggregate
  | item :: rest => by
      refine .bind (lowerExpression_emits known hscope item).value fun value => ?_
      refine .bind (.emitInsertvalue (fun id hid => Or.inl (haggregate id hid))
        Set.subset_union_right) fun id => ?_
      exact lowerItems_emits _
        (hscope.trans (Set.subset_union_left.trans Set.subset_union_left)) type (index + 1)
        (some id) (fun _ hid => Or.inr (Option.some.inj hid).symm) rest

theorem lowerFields_emits (known : Set Nat) (hscope : scope.regs ⊆ known) (decl : IrStruct)
    (type : TypeRef) (aggregate : Option Nat) (haggregate : ∀ id, aggregate = some id → id ∈ known) :
    (fields : List (Name × IrExpr)) →
      Emits known (lowerFields context scope decl type aggregate fields)
        (fun found => {register | found = some register})
  | [] => .pure haggregate
  | (_, field) :: rest => by
      refine .seq (.ofOption fun _ _ => Set.empty_subset _) fun index => ?_
      refine .bind (lowerExpression_emits known hscope field).value fun value => ?_
      refine .bind (.emitInsertvalue (fun id hid => Or.inl (haggregate id hid))
        Set.subset_union_right) fun id => ?_
      exact lowerFields_emits _
        (hscope.trans (Set.subset_union_left.trans Set.subset_union_left)) decl type
        (some id) (fun _ hid => Or.inr (Option.some.inj hid).symm) rest

theorem lowerBound_emits (known : Set Nat) (hscope : scope.regs ⊆ known) (default : Emit LlvmValue)
    (hdefault : Emits known default LlvmValue.regs) :
    (bound : Option IrExpr) → Emits known (lowerBound context scope default bound) LlvmValue.regs
  | none => hdefault
  | some bound => (lowerExpression_emits known hscope bound).value

end

end

/-! Statements. -/

theorem emitRet_prints {known : Set Nat} {value : LlvmValue} (hvalue : value.regs ⊆ known) :
    PrintsOpen known (emitRet value) (fun _ => ∅) := by
  intro state after done code defined hrun hopen hknown
  by_cases hvoid : value.data = .void
  · rw [emitRet, if_pos hvoid] at hrun
    obtain ⟨rfl, rfl⟩ := Emit.terminate_eq_some.mp hrun
    exact ⟨defined, subset_rfl, Set.empty_subset _, .leave rfl
      (uses_subset (by simp [Inst.operands]) (by simp [Inst.pointers]) (by simp [Inst.sources]))
      rfl rfl⟩
  · rw [emitRet, if_neg hvoid] at hrun
    obtain ⟨rfl, rfl⟩ := Emit.terminate_eq_some.mp hrun
    exact ⟨defined, subset_rfl, Set.empty_subset _, .leave rfl
      (uses_subset (by simpa [Inst.operands] using hvalue.trans hknown) (by simp [Inst.pointers])
        (by simp [Inst.sources])) rfl rfl⟩

theorem retVoid_prints {known : Set Nat} :
    PrintsOpen known (Emit.terminate .retVoid) (fun _ => ∅) := by
  intro state after done code defined hrun hopen hknown
  obtain ⟨rfl, rfl⟩ := Emit.terminate_eq_some.mp hrun
  exact ⟨defined, subset_rfl, Set.empty_subset _, .leave rfl
    (uses_subset (by simp [Inst.operands]) (by simp [Inst.pointers]) (by simp [Inst.sources]))
    rfl rfl⟩

theorem beginUnreachable_prints (defined : Set Nat) {state after : EmitState} {code : Code Inst}
    (hrun : beginUnreachableBlockIfNeeded state = some ((), code, after)) :
    after.terminated = false ∧
      Segment state.nextTemp state.nextLabel (state.flow defined) code after.nextTemp
        after.nextLabel (some defined) := by
  obtain ⟨temp, label, terminated⟩ := state
  cases terminated with
  | false =>
      simp only [beginUnreachableBlockIfNeeded, Emit.bind_eq_some, Emit.isTerminated_eq_some,
        ↓existsAndEq, true_and, Bool.false_eq_true, if_false, Emit.pure_eq_some, and_true] at hrun
      obtain ⟨rfl, rfl⟩ := hrun
      exact ⟨rfl, .nil⟩
  | true =>
      simp only [beginUnreachableBlockIfNeeded, Emit.bind_eq_some, Emit.isTerminated_eq_some,
        ↓existsAndEq, true_and, if_true, Emit.nextLabel_eq_some, Emit.label_eq_some,
        and_true] at hrun
      obtain ⟨rfl, rfl⟩ := hrun
      exact ⟨rfl, .unreachable defined⟩

theorem leaves_of_brIfOpen {target : Nat} {certain defined : Set Nat} (hsubset : certain ⊆ defined)
    {state after : EmitState} {code : Code Inst}
    (hrun : emitBrIfOpen target state = some ((), code, after)) :
    Leaves target certain (state.flow defined) code ∧ after.nextTemp = state.nextTemp ∧
      after.nextLabel = state.nextLabel ∧ after.terminated = true := by
  obtain ⟨temp, label, terminated⟩ := state
  cases terminated with
  | false =>
      simp only [emitBrIfOpen, emitBr, Emit.bind_eq_some, Emit.isTerminated_eq_some, ↓existsAndEq,
        true_and, Bool.false_eq_true, if_false, Emit.terminate_eq_some, and_true] at hrun
      obtain ⟨rfl, rfl⟩ := hrun
      exact ⟨.jump hsubset (isJump_br _), rfl, rfl, rfl⟩
  | true =>
      simp only [emitBrIfOpen, Emit.bind_eq_some, Emit.isTerminated_eq_some, ↓existsAndEq,
        true_and, if_true, Emit.pure_eq_some, and_true] at hrun
      obtain ⟨rfl, rfl⟩ := hrun
      exact ⟨.ended, rfl, rfl, rfl⟩

theorem leaves_of_nextIteration {type : TypeRef} {iterPtr condLabel : Nat}
    {certain defined : Set Nat} (hsubset : certain ⊆ defined) (hiter : iterPtr ∈ defined)
    {state after : EmitState} {code : Code Inst}
    (hrun : emitNextIteration type iterPtr condLabel state = some ((), code, after)) :
    ∃ step jump defined', code = step ++ jump ∧
      Segment state.nextTemp state.nextLabel (state.flow defined) step after.nextTemp
        after.nextLabel (state.flow defined') ∧
      Leaves condLabel certain (state.flow defined') jump := by
  obtain ⟨temp, label, terminated⟩ := state
  cases terminated with
  | false =>
      simp only [emitNextIteration, emitBr, emitLoad, emitStore, Emit.bind_eq_some,
        Emit.isTerminated_eq_some, ↓existsAndEq, true_and, Bool.false_eq_true, if_false,
        Emit.terminate_eq_some, Emit.result_eq_some, Emit.write_eq_some, Emit.pure_eq_some,
        exists_const, and_true] at hrun
      obtain ⟨rfl, rfl⟩ := hrun
      refine ⟨[.inst (.load temp type (.reg iterPtr)),
        .inst (.arith (temp + 1) .add (.register type temp) (constantInt 1)),
        .inst (.store (.register type (temp + 1)) (.reg iterPtr))], [.inst (.br condLabel)],
        defined ∪ {temp} ∪ {temp + 1}, rfl, ?_,
        .jump (fun _ hmem => Or.inl (Or.inl (hsubset hmem))) (isJump_br _)⟩
      refine (segment_load type hiter).append (.append (.define rfl ?_ rfl rfl)
        (segment_store ?_ (Or.inl (Or.inl hiter))))
      · exact uses_subset (by simp [Inst.operands, regs_constantInt]) (by simp [Inst.pointers])
          (by simp [Inst.sources])
      · rw [LlvmValue.regs_register]
        exact Set.subset_union_right
  | true =>
      simp only [emitNextIteration, Emit.bind_eq_some, Emit.isTerminated_eq_some, ↓existsAndEq,
        true_and, if_true, Emit.pure_eq_some, and_true] at hrun
      obtain ⟨rfl, rfl⟩ := hrun
      exact ⟨[], [], defined, rfl, .nil, .ended⟩

section

variable (context : EmitContext)

mutual

theorem emitStatement_prints (scope : Scope) :
    (statement : IrStmt) → PrintsOpen scope.regs (emitStatement context scope statement) Scope.regs
  | .letStmt name _ type initializer => by
      refine .of_emits (.bind (lowerExpression_emits context scope _ subset_rfl initializer).value
        fun value => ?_)
      refine .bind .emitAlloca fun id => ?_
      refine .seq (.emitStore (fun _ hmem => Or.inl (Or.inr hmem)) ?_) fun _ => .pure ?_
      · rw [Pointer.regs_reg]
        exact Set.subset_union_right
      · exact (Scope.regs_define scope name type id).trans
          (Set.union_subset (fun _ hmem => Or.inl (Or.inl hmem)) Set.subset_union_right)
  | .assign target value => by
      have htarget := (lowerExpression_emits context scope _ subset_rfl target).address
      have hvalue := (lowerExpression_emits context scope _ subset_rfl value).value
      rw [emitStatement]
      split
      · refine .of_emits (.bind htarget fun address => ?_)
        refine .bind (hvalue.weaken Set.subset_union_left) fun stored => ?_
        exact .seq (.emitStore Set.subset_union_right fun _ hmem => Or.inl (Or.inr hmem))
          fun _ => .pure fun _ hmem => Or.inl (Or.inl hmem)
      · exact .of_emits .fail
  | .returnStmt none => .andReturn retVoid_prints subset_rfl
  | .returnStmt (some value) => by
      refine .bind (lowerExpression_emits context scope _ subset_rfl value).value fun result => ?_
      exact .andReturn (emitRet_prints Set.subset_union_right) Set.subset_union_left
  | .expr value => by
      refine .of_emits (.bind (lowerExpression_emits context scope _ subset_rfl value).value
        fun _ => .pure Set.subset_union_left)
  | .zone zoneName body => by
      refine .bind .emitAlloca fun zonePtr => ?_
      refine .bind (.emitCall (by simp)) fun zoneValue => ?_
      refine .seq (.emitStore Set.subset_union_right ?_) fun _ => ?_
      · rw [Pointer.regs_reg]
        exact fun _ hmem => Or.inl (Or.inr hmem)
      · have hbody := emitBlock_prints ((scope.push.define zoneName (.ptr .u8) zonePtr).push) body
        refine .andReturn ((PrintsOpen.of_prints hbody).weaken ?_)
          (fun _ hmem => Or.inl (Or.inl hmem))
        rw [Scope.regs_push]
        exact (Scope.regs_define _ _ _ _).trans Set.subset_union_left
  | .ifStmt condition thenBlock elseBlock => by
      intro state after scope' code defined hrun hopen hknown
      obtain ⟨test, testCode, middle, thenCode, middle', thenJump, elseStart, elseCode, elseEnd,
        htestRun, hthenRun, hthenJumpRun, helseRun, rfl, rfl, rfl⟩ := emitStatement_if_eq_some hrun
      obtain ⟨-, testDefined, htestSubset, htestRegs, htestSegment⟩ :=
        (lowerExpression_emits context scope _ subset_rfl condition).value htestRun hopen hknown
      obtain ⟨thenDefined, hthenSubset, -, hthenSegment⟩ :=
        emitBlock_prints scope.push thenBlock hthenRun (hknown.trans htestSubset)
      obtain ⟨hthenLeaves, hthenTemp, hthenLabel, -⟩ := leaves_of_brIfOpen hthenSubset hthenJumpRun
      refine ⟨testDefined, htestSubset, hknown.trans htestSubset, ?_⟩
      cases elseBlock with
      | none =>
          obtain ⟨-, rfl, rfl⟩ := Emit.pure_eq_some.mp helseRun
          have hbranch := isBranch_condBr htestRegs state.nextLabel (state.nextLabel + 2) _ _
            (Or.inl rfl) (Or.inr rfl)
          have hover := Segment.branchOver htestSegment hbranch hthenSegment hthenLeaves
          rw [← hthenTemp, ← hthenLabel] at hover
          simpa using hover
      | some block =>
          obtain ⟨blockCode, blockEnd, elseJump, hblockRun, helseJumpRun, rfl⟩ :=
            emitElse_some_eq_some helseRun
          obtain ⟨elseDefined, helseSubset, -, helseSegment⟩ :=
            emitBlock_prints scope.push block hblockRun (hknown.trans htestSubset)
          obtain ⟨helseLeaves, helseTemp, helseLabel, -⟩ :=
            leaves_of_brIfOpen helseSubset helseJumpRun
          have hbranch := isBranch_condBr htestRegs state.nextLabel (state.nextLabel + 1) _ _
            (Or.inl rfl) (Or.inr rfl)
          rw [← hthenTemp, ← hthenLabel] at hthenSegment
          have hdiamond := Segment.diamond htestSegment hbranch hthenSegment hthenLeaves
            helseSegment helseLeaves
          rw [← helseTemp, ← helseLabel] at hdiamond
          simpa using hdiamond
  | .whileStmt condition body => by
      intro state after scope' code defined hrun hopen hknown
      obtain ⟨test, testCode, middle, bodyCode, middle', jump, bodyEnd, htestRun, hbodyRun,
        hjumpRun, rfl, rfl, rfl⟩ := emitStatement_while_eq_some hrun
      obtain ⟨-, testDefined, htestSubset, htestRegs, htestSegment⟩ :=
        (lowerExpression_emits context scope _ subset_rfl condition).value htestRun rfl hknown
      obtain ⟨bodyDefined, hbodySubset, -, hbodySegment⟩ :=
        emitBlock_prints scope.push body hbodyRun (hknown.trans htestSubset)
      obtain ⟨hleaves, htemp, hlabel, -⟩ :=
        leaves_of_brIfOpen (htestSubset.trans hbodySubset) hjumpRun
      have hbranch := isBranch_condBr htestRegs (state.nextLabel + 1) (state.nextLabel + 2) _ _
        (Or.inl rfl) (Or.inr rfl)
      have hloop := Segment.whileLoop .nil (isJump_br _) htestSegment hbranch hbodySegment hleaves
      rw [← htemp, ← hlabel] at hloop
      exact ⟨testDefined, htestSubset, hknown.trans htestSubset, by simpa using hloop⟩
  | .loop body => by
      intro state after scope' code defined hrun hopen hknown
      obtain ⟨bodyCode, middle, jump, bodyEnd, hbodyRun, hjumpRun, rfl, rfl, rfl⟩ :=
        emitStatement_loop_eq_some hrun
      obtain ⟨bodyDefined, hbodySubset, -, hbodySegment⟩ :=
        emitBlock_prints scope.push body hbodyRun hknown
      obtain ⟨hleaves, htemp, hlabel, -⟩ := leaves_of_brIfOpen hbodySubset hjumpRun
      have hloop := Segment.endlessLoop (isJump_br _) hbodySegment hleaves
      rw [← htemp, ← hlabel] at hloop
      exact ⟨defined, subset_rfl, hknown, by simpa using hloop⟩
  | .forStmt name type start stop body => by
      intro state after scope' code defined hrun hopen hknown
      obtain ⟨startValue, startCode, middle, stopValue, stopCode, middle', bodyCode, middle'', step,
        bodyEnd, hstartRun, hstopRun, hbodyRun, hstepRun, rfl, rfl, rfl⟩ :=
        emitStatement_for_eq_some hrun
      have hslots : scope.regs ⊆ defined ∪ {state.nextTemp} ∪ {state.nextTemp + 1} :=
        fun _ hmem => Or.inl (Or.inl (hknown hmem))
      obtain ⟨hopen', startDefined, hstartSubset, hstartRegs, hstartSegment⟩ :=
        (lowerExpression_emits context scope _ subset_rfl start).value hstartRun hopen hslots
      obtain ⟨-, stopDefined, hstopSubset, hstopRegs, hstopSegment⟩ :=
        (lowerExpression_emits context scope _ subset_rfl stop).value hstopRun hopen'
          (hslots.trans hstartSubset)
      have hslotsSubset := hstartSubset.trans hstopSubset
      have hiter : state.nextTemp ∈ stopDefined := hslotsSubset (Or.inl (Or.inr rfl))
      have hend : state.nextTemp + 1 ∈ stopDefined := hslotsSubset (Or.inr rfl)
      have hprefix := (segment_alloca type).append ((segment_alloca type).append
        (hstartSegment.append (hstopSegment.append
          ((segment_store (hstartRegs.trans hstopSubset) hiter).append
            (segment_store hstopRegs hend)))))
      have htest := segment_compare middle'.nextTemp middle'.nextLabel type hiter hend
      have htestSubset : stopDefined ⊆ stopDefined ∪ {middle'.nextTemp} ∪
          {middle'.nextTemp + 1} ∪ {middle'.nextTemp + 2} :=
        fun _ hmem => Or.inl (Or.inl (Or.inl hmem))
      have hinner : ((scope.push.define name type state.nextTemp).push).regs ⊆ stopDefined := by
        refine (Scope.regs_define _ _ _ _).trans (Set.union_subset ?_ ?_)
        · exact hslots.trans hslotsSubset
        · exact Set.singleton_subset_iff.mpr hiter
      obtain ⟨bodyDefined, hbodySubset, -, hbodySegment⟩ :=
        emitBlock_prints ((scope.push.define name type state.nextTemp).push) body hbodyRun
          (hinner.trans htestSubset)
      obtain ⟨stepCode, jump, stepDefined, rfl, hstep, hleaves⟩ :=
        leaves_of_nextIteration (htestSubset.trans hbodySubset)
          (hbodySubset (htestSubset hiter)) hstepRun
      have hcompared : (LlvmValue.register .bool (middle'.nextTemp + 2)).regs ⊆
          stopDefined ∪ {middle'.nextTemp} ∪ {middle'.nextTemp + 1} ∪ {middle'.nextTemp + 2} := by
        rw [LlvmValue.regs_register]
        exact Set.subset_union_right
      have hbranch := isBranch_condBr hcompared (state.nextLabel + 1) (state.nextLabel + 2) _ _
        (Or.inl rfl) (Or.inr rfl)
      have hloop := Segment.whileLoop hprefix (isJump_br _) htest hbranch
        (hbodySegment.append hstep) hleaves
      refine ⟨_, fun _ hmem => htestSubset (hslotsSubset (Or.inl (Or.inl hmem))),
        hknown.trans fun _ hmem => htestSubset (hslotsSubset (Or.inl (Or.inl hmem))), ?_⟩
      simpa using hloop
  | .free value => by
      refine .of_emits (.bind (lowerExpression_emits context scope _ subset_rfl value).value
        fun freed => ?_)
      exact .seq (.callVoid (by simp)) fun _ => .pure Set.subset_union_left

theorem emitBlock_prints (scope : Scope) :
    (block : List IrStmt) → Prints scope.regs (emitBlock context scope block) (fun _ => ∅)
  | [] => by
      intro state after done code defined hrun hknown
      obtain ⟨-, rfl, rfl⟩ := Emit.pure_eq_some.mp hrun
      exact ⟨defined, subset_rfl, Set.empty_subset _, .nil⟩
  | statement :: rest => by
      intro state after done code defined hrun hknown
      obtain ⟨_, opening, started, _, hopenRun, hbehindRun, rfl⟩ := Emit.bind_eq_some.mp hrun
      obtain ⟨scope', statementCode, middle, restCode, hstatementRun, hrestRun, rfl⟩ :=
        Emit.bind_eq_some.mp hbehindRun
      obtain ⟨hstarted, hopening⟩ := beginUnreachable_prints defined hopenRun
      obtain ⟨defined', hsubset', hscope', hstatement⟩ :=
        emitStatement_prints scope statement hstatementRun hstarted hknown
      obtain ⟨defined'', hsubset'', -, hrest⟩ := emitBlock_prints scope' rest hrestRun hscope'
      exact ⟨defined'', hsubset'.trans hsubset'', Set.empty_subset _,
        hopening.append (hstatement.append hrest)⟩

end

end

theorem emitParameters_emits (scope : Scope) (index : Nat) (params : List Param) :
    Emits scope.regs (emitParameters scope index params) Scope.regs := by
  induction params generalizing scope index with
  | nil => exact .pure subset_rfl
  | cons param rest ih =>
      refine .bind .emitAlloca fun id => ?_
      refine .seq (.write rfl rfl (uses_subset (by simp [Inst.operands]) ?_ (by simp [Inst.sources]))
        rfl) fun _ => (ih _ _).weaken (Scope.regs_define _ _ _ _)
      intro pointer hpointer
      simp only [Inst.pointers, List.mem_singleton] at hpointer
      rw [hpointer, Pointer.regs_reg]
      exact Set.subset_union_right

/-- The terminator `emitBody` puts behind the last statement, if one is missing. -/
theorem segment_of_lastTerminator {returnType : TypeRef} {state after : EmitState} {code : Code Inst}
    {defined : Set Nat}
    (hrun : (do
      if ← Emit.isTerminated then return ()
      else if returnType = .void then Emit.terminate .retVoid
      else Emit.terminate .unreachable : Emit Unit) state = some ((), code, after)) :
    Segment state.nextTemp state.nextLabel (state.flow defined) code after.nextTemp
      after.nextLabel none := by
  obtain ⟨temp, label, terminated⟩ := state
  cases terminated with
  | true =>
      simp only [Emit.bind_eq_some, Emit.isTerminated_eq_some, ↓existsAndEq, true_and, if_true,
        Emit.pure_eq_some, and_true] at hrun
      obtain ⟨rfl, rfl⟩ := hrun
      exact .nil
  | false =>
      by_cases hvoid : returnType = .void
      · simp only [Emit.bind_eq_some, Emit.isTerminated_eq_some, ↓existsAndEq, true_and, hvoid,
          Bool.false_eq_true, if_false, if_true, Emit.terminate_eq_some, and_true] at hrun
        obtain ⟨rfl, rfl⟩ := hrun
        exact .leave rfl (uses_subset (by simp [Inst.operands]) (by simp [Inst.pointers])
          (by simp [Inst.sources])) rfl rfl
      · simp only [Emit.bind_eq_some, Emit.isTerminated_eq_some, ↓existsAndEq, true_and, hvoid,
          Bool.false_eq_true, if_false, Emit.terminate_eq_some, and_true] at hrun
        obtain ⟨rfl, rfl⟩ := hrun
        exact .leave rfl (uses_subset (by simp [Inst.operands]) (by simp [Inst.pointers])
          (by simp [Inst.sources])) rfl rfl

theorem emitFunction_wellFormed {context : EmitContext} {function : IrFunction}
    {body : Code Inst} (hemit : emitFunction context function = some body) : body.WellFormed := by
  obtain ⟨⟨_, code, after⟩, hrun, rfl⟩ := Option.map_eq_some_iff.mp hemit
  obtain ⟨scope, paramCode, started, _, hparams, hbehindRun, rfl⟩ := Emit.bind_eq_some.mp hrun
  obtain ⟨_, blockCode, finished, lastCode, hblockRun, hlastRun, rfl⟩ :=
    Emit.bind_eq_some.mp hbehindRun
  obtain ⟨hopen, defined, -, hscope, hparamSegment⟩ :=
    emitParameters_emits (Scope.push []) 0 function.parameters hparams rfl
      (fun register hregister => by
        obtain ⟨name, found, hfind, -⟩ := hregister
        simp [Scope.push] at hfind)
  obtain ⟨defined', -, -, hblockSegment⟩ :=
    emitBlock_prints context scope function.body hblockRun hscope
  rw [EmitState.flow_open hopen] at hblockSegment
  exact (hparamSegment.append
    (hblockSegment.append (segment_of_lastTerminator hlastRun))).wellFormed

end Llvm

end Cnegative
