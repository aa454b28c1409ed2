import Cnegative.Backend.Emit
import Cnegative.Backend.Runs

namespace Cnegative

open Library (Line Code)

namespace Llvm

/-! The straight-line code of a comparison, run on registers. -/

abbrev Regs := Nat → Option Value

def LlvmValue.eval (regs : Regs) (operand : LlvmValue) : Option Value :=
  match operand.data with
  | .int value => some (Value.ofInt operand.type value)
  | .bool value => some (.bool value)
  | .null => some (.ptr none)
  | .reg id => regs id
  | .stray | .void => none

def icmpEq : Value → Value → Option Bool
  | .int left, .int right => some (left = right)
  | .u8 left, .u8 right => some (left = right)
  | .bool left, .bool right => some (left = right)
  | .ptr left, .ptr right => some (left = right)
  | _, _ => none

def strcmpSign (left right : List UInt8) : BitVec 64 :=
  if left = right then 0 else if left < right then -1 else 1

/-- `strcmp`; a null pointer has no result. -/
def strcmpValue : Value → Value → Option Value
  | .str _ left, .str _ right => some (.int (strcmpSign (Value.cstring left) (Value.cstring right)))
  | _, _ => none

def boolAndValue : Value → Value → Option Value
  | .bool left, .bool right => some (.bool (left && right))
  | _, _ => none

def Regs.set (regs : Regs) (id : Nat) (value : Value) : Regs :=
  Function.update regs id (some value)

def Regs.step (regs : Regs) : Inst → Option Regs
  | .extractValue result aggregate index => do
      let item ← (← aggregate.eval regs).item? index
      return regs.set result item
  | .icmp result .eq left right => do
      let same ← icmpEq (← left.eval regs) (← right.eval regs)
      return regs.set result (.bool same)
  | .strcmp result left right => do
      let sign ← strcmpValue (← left.eval regs) (← right.eval regs)
      return regs.set result sign
  | .icmpZero result source => do
      match ← regs source with
      | .int value => return regs.set result (.bool (value = 0))
      | _ => none
  | .boolAnd result left right => do
      let both ← boolAndValue (← left.eval regs) (← right.eval regs)
      return regs.set result both
  | _ => none

section Step

variable (regs : Regs) (result : Nat) (left right : LlvmValue)

theorem Regs.step_extractValue (index : Nat) : regs.step (.extractValue result left index) = (do
      let item ← (← left.eval regs).item? index
      return regs.set result item) :=
  rfl

theorem Regs.step_icmp : regs.step (.icmp result .eq left right) = (do
      let same ← icmpEq (← left.eval regs) (← right.eval regs)
      return regs.set result (.bool same)) :=
  rfl

theorem Regs.step_strcmp : regs.step (.strcmp result left right) = (do
      let sign ← strcmpValue (← left.eval regs) (← right.eval regs)
      return regs.set result sign) :=
  rfl

theorem Regs.step_icmpZero (source : Nat) : regs.step (.icmpZero result source) = (do
      match ← regs source with
      | .int value => return regs.set result (.bool (value = 0))
      | _ => none) :=
  rfl

theorem Regs.step_boolAnd : regs.step (.boolAnd result left right) = (do
      let both ← boolAndValue (← left.eval regs) (← right.eval regs)
      return regs.set result both) :=
  rfl

end Step

def Regs.run (regs : Regs) : Code Inst → Option Regs
  | [] => some regs
  | .inst inst :: code => (regs.step inst).bind fun next => next.run code
  | .label _ :: _ => none

theorem Regs.run_append (regs : Regs) (before after : Code Inst) :
    regs.run (before ++ after) = (regs.run before).bind fun middle => middle.run after := by
  induction before generalizing regs with
  | nil => rfl
  | cons line before ih =>
      cases line with
      | label id => rfl
      | inst inst =>
          rw [List.cons_append, Regs.run, Regs.run, Option.bind_assoc]
          congr 1
          funext next
          exact ih next

/-- The registers below `bound` are as they were. -/
def Agrees (bound : Nat) (before after : Regs) : Prop :=
  ∀ id, id < bound → after id = before id

theorem Agrees.refl (bound : Nat) (regs : Regs) : Agrees bound regs regs := fun _ _ => rfl

theorem Agrees.trans {low high : Nat} {first second third : Regs} (hfirst : Agrees low first second)
    (hsecond : Agrees high second third) (hle : low ≤ high) : Agrees low first third :=
  fun id hid => (hsecond id (Nat.lt_of_lt_of_le hid hle)).trans (hfirst id hid)

theorem Agrees.set {bound id : Nat} {value : Value} (regs : Regs) (hid : bound ≤ id) :
    Agrees bound regs (regs.set id value) :=
  fun other hother => Function.update_of_ne (by omega) _ _

/-- The operand is one of the registers below `bound` or a constant, and holds the value. -/
structure Stands (regs : Regs) (bound : Nat) (operand : LlvmValue) (value : Value) : Prop where
  eval : operand.eval regs = some value
  lt : ∀ id, operand.data = .reg id → id < bound

theorem Stands.mono {before after : Regs} {low high : Nat} {operand : LlvmValue} {value : Value}
    (hstands : Stands before low operand value) (hagrees : Agrees low before after)
    (hle : low ≤ high) : Stands after high operand value where
  eval := by
    rw [← hstands.eval]
    unfold LlvmValue.eval
    cases hdata : operand.data with
    | reg id => exact hagrees id (hstands.lt id hdata)
    | _ => rfl
  lt id hdata := Nat.lt_of_lt_of_le (hstands.lt id hdata) hle

theorem Stands.register (regs : Regs) (type : TypeRef) (id : Nat) (value : Value) :
    Stands (regs.set id value) (id + 1) (.register type id) value where
  eval := Function.update_self ..
  lt other hdata := by
    cases hdata
    exact Nat.lt_succ_self _

/-- The code has the value as its result, or does not get to its end. -/
def Answers (emitter : Emit LlvmValue) (regs : Regs) (bound : Nat) (answer : Option Value) : Prop :=
  ∀ ⦃state after : EmitState⦄ ⦃operand : LlvmValue⦄ ⦃code : Code Inst⦄,
    emitter state = some (operand, code, after) → bound ≤ state.nextTemp →
    ∀ before : Regs, Agrees bound regs before →
      match answer with
      | none => before.run code = none
      | some value => state.nextTemp ≤ after.nextTemp ∧ ∃ last, before.run code = some last ∧
          Agrees state.nextTemp before last ∧ Stands last after.nextTemp operand value

namespace Answers

variable {regs : Regs} {bound : Nat} {answer : Option Value}

theorem fail : Answers Emit.fail regs bound answer := by
  intro state after operand code hrun
  exact (Emit.fail_eq_some.mp hrun).elim

theorem pure {operand : LlvmValue} {value : Value} (hstands : Stands regs bound operand value) :
    Answers (pure operand) regs bound (some value) := by
  intro state after result code hrun hbound before hbefore
  obtain ⟨rfl, rfl, rfl⟩ := Emit.pure_eq_some.mp hrun
  exact ⟨le_refl _, before, rfl, .refl _ _, hstands.mono hbefore hbound⟩

theorem bind {first : Emit LlvmValue} {next : LlvmValue → Emit LlvmValue} {value : Value}
    (hfirst : Answers first regs bound (some value))
    (hnext : ∀ ⦃regs' bound' operand⦄, Agrees bound regs regs' → bound ≤ bound' →
      Stands regs' bound' operand value → Answers (next operand) regs' bound' answer) :
    Answers (first >>= next) regs bound answer := by
  intro state after operand code hrun hbound before hbefore
  obtain ⟨middle, front, between, back, hrunFirst, hrunNext, rfl⟩ := Emit.bind_eq_some.mp hrun
  obtain ⟨hle, last, hlast, hagrees, hstands⟩ := hfirst hrunFirst hbound before hbefore
  have hrest := hnext (hbefore.trans hagrees hbound) (hbound.trans hle) hstands hrunNext
    (le_refl _) last (.refl _ _)
  rw [Regs.run_append, hlast, Option.bind_some]
  cases answer with
  | none => exact hrest
  | some result =>
      obtain ⟨hle', final, hfinal, hagrees', hstands'⟩ := hrest
      exact ⟨hle.trans hle', final, hfinal, hagrees.trans hagrees' hle, hstands'⟩

theorem bind_none {first : Emit LlvmValue} {next : LlvmValue → Emit LlvmValue}
    (hfirst : Answers first regs bound none) : Answers (first >>= next) regs bound none := by
  intro state after operand code hrun hbound before hbefore
  obtain ⟨middle, front, between, back, hrunFirst, -, rfl⟩ := Emit.bind_eq_some.mp hrun
  have hstuck : before.run front = none := hfirst hrunFirst hbound before hbefore
  change before.run (front ++ back) = none
  rw [Regs.run_append, hstuck, Option.bind_none]

/-- One instruction, whose result is the next register. -/
theorem inst {inst : Nat → Inst} (type : TypeRef)
    (hstep : ∀ before id, Agrees bound regs before →
      before.step (inst id) = answer.map fun value => before.set id value) :
    Answers (do return .register type (← Emit.result inst)) regs bound answer := by
  intro state after operand code hrun hbound before hbefore
  obtain ⟨id, front, between, back, hrunFirst, hrunNext, rfl⟩ := Emit.bind_eq_some.mp hrun
  obtain ⟨rfl, rfl, rfl⟩ := Emit.result_eq_some.mp hrunFirst
  obtain ⟨rfl, rfl, rfl⟩ := Emit.pure_eq_some.mp hrunNext
  have hrunInst : before.run ([.inst (inst state.nextTemp)] ++ []) =
      answer.map fun value => before.set state.nextTemp value := by
    change (before.step (inst state.nextTemp)).bind some = _
    rw [hstep before _ hbefore]
    cases answer <;> rfl
  cases answer with
  | none => exact hrunInst
  | some value =>
      exact ⟨Nat.le_succ _, _, hrunInst, .set before (le_refl _), .register before type _ value⟩

theorem result_bind {inst : Nat → Inst} {next : Nat → Emit LlvmValue} {value : Value}
    (hstep : ∀ before id, Agrees bound regs before →
      before.step (inst id) = some (before.set id value))
    (hnext : ∀ (before : Regs) (id : Nat),
      Answers (next id) (before.set id value) (id + 1) answer) :
    Answers (Emit.result inst >>= next) regs bound answer := by
  intro state after operand code hrun hbound before hbefore
  obtain ⟨id, front, between, back, hrunFirst, hrunNext, rfl⟩ := Emit.bind_eq_some.mp hrun
  obtain ⟨rfl, rfl, rfl⟩ := Emit.result_eq_some.mp hrunFirst
  have hrest := hnext before state.nextTemp hrunNext (le_refl _) _ (.refl _ _)
  have hrunInst : before.run ([.inst (inst state.nextTemp)] ++ back) =
      (before.set state.nextTemp value).run back := by
    change (before.step (inst state.nextTemp)).bind _ = _
    rw [hstep before _ hbefore]
    rfl
  rw [hrunInst]
  cases answer with
  | none => exact hrest
  | some result =>
      obtain ⟨hle, last, hlast, hagrees, hstands⟩ := hrest
      exact ⟨(Nat.le_succ _).trans hle, last, hlast,
        (Agrees.set before (le_refl _)).trans hagrees (Nat.le_succ _), hstands⟩

theorem result_bind_none {inst : Nat → Inst} {next : Nat → Emit LlvmValue}
    (hstep : ∀ before id, Agrees bound regs before → before.step (inst id) = none) :
    Answers (Emit.result inst >>= next) regs bound none := by
  intro state after operand code hrun hbound before hbefore
  obtain ⟨id, front, between, back, hrunFirst, -, rfl⟩ := Emit.bind_eq_some.mp hrun
  obtain ⟨rfl, rfl, rfl⟩ := Emit.result_eq_some.mp hrunFirst
  change (before.step (inst state.nextTemp)).bind _ = none
  rw [hstep before _ hbefore]
  rfl

theorem mono {emitter : Emit LlvmValue} {regs' : Regs} {bound' : Nat}
    (hanswers : Answers emitter regs bound answer) (hagrees : Agrees bound regs regs')
    (hle : bound ≤ bound') : Answers emitter regs' bound' answer :=
  fun _ _ _ _ hrun hbound before hbefore =>
    hanswers hrun (hle.trans hbound) before (hagrees.trans hbefore hle)

end Answers

/-- The comparison emitted for operands that hold the two values. -/
def Decides (equality : LlvmValue → LlvmValue → Emit LlvmValue) (left right : Value)
    (answer : Option Bool) : Prop :=
  ∀ ⦃regs bound first second⦄, Stands regs bound first left → Stands regs bound second right →
    Answers (equality first second) regs bound (answer.map .bool)

theorem Stands.eval_of_agrees {regs before : Regs} {bound : Nat} {operand : LlvmValue}
    {value : Value} (hstands : Stands regs bound operand value) (hagrees : Agrees bound regs before) :
    operand.eval before = some value :=
  (hstands.mono hagrees (le_refl _)).eval

theorem answers_extractvalue {regs : Regs} {bound index : Nat} {operand : LlvmValue}
    {value item : Value} (type : TypeRef) (hstands : Stands regs bound operand value)
    (hitem : value.item? index = some item) :
    Answers (emitExtractvalue operand type index) regs bound (some item) := by
  refine .inst type fun before id hbefore => ?_
  rw [Regs.step_extractValue, hstands.eval_of_agrees hbefore]
  change (value.item? index).bind _ = _
  rw [hitem]
  rfl

theorem answers_boolAnd {regs : Regs} {bound : Nat} {left right : LlvmValue} {first second : Bool}
    (hleft : Stands regs bound left (.bool first)) (hright : Stands regs bound right (.bool second)) :
    Answers (emitBoolAnd left right) regs bound (some (.bool (first && second))) := by
  refine .inst .bool fun before id hbefore => ?_
  rw [Regs.step_boolAnd, hleft.eval_of_agrees hbefore, hright.eval_of_agrees hbefore]
  rfl

theorem compares_scalar {left right : Value} {same : Bool} (hsame : icmpEq left right = some same) :
    Decides emitScalarEquality left right (some same) := by
  intro regs bound first second hleft hright
  refine .inst .bool fun before id hbefore => ?_
  rw [Regs.step_icmp, hleft.eval_of_agrees hbefore, hright.eval_of_agrees hbefore]
  change (icmpEq left right).bind _ = _
  rw [hsame]
  rfl

theorem strcmpSign_eq_zero {left right : List UInt8} : strcmpSign left right = 0 ↔ left = right := by
  unfold strcmpSign
  split
  · simp_all
  · split <;> simp_all

theorem compares_str (owner owner' : Option Nat) (left right : List UInt8) :
    Decides emitStrEquality (.str owner left) (.str owner' right)
      (some (decide (Value.cstring left = Value.cstring right))) := by
  intro regs bound first second hleft hright
  have hstep : ∀ before id, Agrees bound regs before →
      before.step (.strcmp id first second) = some (before.set id
        (.int (strcmpSign (Value.cstring left) (Value.cstring right)))) := by
    intro before id hbefore
    rw [Regs.step_strcmp, hleft.eval_of_agrees hbefore, hright.eval_of_agrees hbefore]
    rfl
  refine Answers.result_bind hstep fun before order => .inst .bool fun before' id hagrees => ?_
  have horder : before' order =
      some (.int (strcmpSign (Value.cstring left) (Value.cstring right))) :=
    (hagrees order (Nat.lt_succ_self _)).trans (Function.update_self ..)
  rw [Regs.step_icmpZero, horder]
  change some (Regs.set _ _ (.bool _)) = some (Regs.set _ _ (.bool _))
  rw [decide_eq_decide.mpr strcmpSign_eq_zero]

theorem compares_null_str {left right : Value} (hnull : strcmpValue left right = none) :
    Decides emitStrEquality left right none := by
  intro regs bound first second hleft hright
  refine Answers.result_bind_none fun before id hbefore => ?_
  rw [Regs.step_strcmp, hleft.eval_of_agrees hbefore, hright.eval_of_agrees hbefore]
  change (strcmpValue left right).bind _ = none
  rw [hnull]
  rfl

/-- Members are taken out of both values and compared. -/
theorem answers_member {regs : Regs} {bound index : Nat} {left right : LlvmValue}
    {first second item other : Value} {answer : Option Bool} (type : TypeRef)
    {equality : LlvmValue → LlvmValue → Emit LlvmValue} (hleft : Stands regs bound left first)
    (hright : Stands regs bound right second) (hitem : first.item? index = some item)
    (hother : second.item? index = some other) (hcompares : Decides equality item other answer) :
    Answers (emitMemberEquality left right type index equality) regs bound
      (answer.map .bool) := by
  refine (answers_extractvalue type hleft hitem).bind fun regs' bound' operand hagrees hle hfirst => ?_
  refine (answers_extractvalue type (hright.mono hagrees hle) hother).bind
    fun regs'' bound'' operand' hagrees' hle' hsecond => ?_
  exact hcompares (hfirst.mono hagrees' hle') hsecond

/-- Two comparisons and their conjunction; neither is left out. -/
theorem answers_both {regs : Regs} {bound : Nat} {first second : Emit LlvmValue}
    {answer answer' : Option Bool} (hfirst : Answers first regs bound (answer.map .bool))
    (hsecond : Answers second regs bound (answer'.map .bool)) :
    Answers (do
      let left ← first
      let right ← second
      emitBoolAnd left right) regs bound
      ((answer.bind fun a => answer'.map fun b => a && b).map .bool) := by
  cases answer with
  | none => exact .bind_none hfirst
  | some a =>
      refine Answers.bind hfirst fun regs' bound' left hagrees hle hleft => ?_
      cases answer' with
      | none => exact .bind_none (hsecond.mono hagrees hle)
      | some b =>
          refine Answers.bind (hsecond.mono hagrees hle)
            fun regs'' bound'' right hagrees' hle' hright => ?_
          exact answers_boolAnd (hleft.mono hagrees' hle') hright

/-- All answers, `none` where one of them is. -/
def allEqual : List (Option Bool) → Option Bool
  | [] => some true
  | answer :: answers => answer.bind fun first => (allEqual answers).map fun rest => first && rest

/-- One round of the loops over array items and fields. -/
def andItem (result : LlvmValue) (item : Emit LlvmValue) : Emit LlvmValue := do
  let itemEq ← item
  match result.data with
  | .bool true => return itemEq
  | _ => emitBoolAnd result itemEq

theorem answers_andItem {regs : Regs} {bound : Nat} {result : LlvmValue} {soFar : Bool}
    {item : Emit LlvmValue} {answer : Option Bool} (hresult : Stands regs bound result (.bool soFar))
    (hitem : Answers item regs bound (answer.map .bool)) :
    Answers (andItem result item) regs bound
      ((answer.map fun same => soFar && same).map .bool) := by
  cases answer with
  | none => exact .bind_none hitem
  | some same =>
      refine Answers.bind hitem fun regs' bound' itemEq hagrees hle hitemEq => ?_
      split
      · rename_i hdata
        have hsoFar : soFar = true := by
          have heval := hresult.eval
          rw [LlvmValue.eval, hdata] at heval
          cases heval
          rfl
        rw [hsoFar]
        exact .pure hitemEq
      · exact answers_boolAnd (hresult.mono hagrees hle) hitemEq

theorem answers_fold {regs : Regs} {bound : Nat} {items : List (Emit LlvmValue)}
    {answers : List (Option Bool)}
    (hitems : List.Forall₂ (fun item answer => Answers item regs bound (answer.map .bool))
      items answers) {regs' : Regs} {bound' : Nat} (hagrees : Agrees bound regs regs')
    (hle : bound ≤ bound') {result : LlvmValue} {soFar : Bool}
    (hresult : Stands regs' bound' result (.bool soFar)) :
    Answers (items.foldlM andItem result) regs' bound'
      (((allEqual answers).map fun rest => soFar && rest).map .bool) := by
  induction hitems generalizing regs' bound' result soFar with
  | nil =>
      rw [List.foldlM_nil]
      simpa [allEqual] using Answers.pure hresult
  | @cons item answer items answers hitem hitems ih =>
      rw [List.foldlM_cons]
      have hround := answers_andItem hresult (hitem.mono hagrees hle)
      cases answer with
      | none => exact .bind_none hround
      | some same =>
          refine Answers.bind hround fun regs'' bound'' next hagrees' hle' hnext => ?_
          have hrest := ih (hagrees.trans hagrees' hle) (hle.trans hle') hnext
          have hanswer : ((allEqual (some same :: answers)).map fun rest => soFar && rest) =
              (allEqual answers).map fun rest => soFar && same && rest := by
            rw [allEqual, Option.bind_some, Option.map_map]
            simp only [Function.comp_def, Bool.and_assoc]
          rw [hanswer]
          exact hrest

theorem answers_allEqual {regs : Regs} {bound : Nat} {items : List (Emit LlvmValue)}
    {answers : List (Option Bool)}
    (hitems : List.Forall₂ (fun item answer => Answers item regs bound (answer.map .bool))
      items answers) :
    Answers (emitAllEqual items) regs bound ((allEqual answers).map .bool) := by
  have htrue : Stands regs bound (constantBool true) (.bool true) := by
    refine ⟨rfl, fun id hdata => ?_⟩
    cases hdata
  have hfold := answers_fold hitems (.refl bound regs) (le_refl _) htrue
  simp only [Bool.true_and, Option.map_id'] at hfold
  exact hfold

/-! Values of a type.  A null string occurs only where `nulls` allows it, which is in what an
`err` carries along. -/

inductive HasType (structs : StructTable) : Bool → TypeRef → Value → Prop where
  | int (nulls : Bool) (value : BitVec 64) : HasType structs nulls .int (.int value)
  | u8 (nulls : Bool) (value : BitVec 8) : HasType structs nulls .u8 (.u8 value)
  | bool (nulls : Bool) (value : Bool) : HasType structs nulls .bool (.bool value)
  | str (nulls : Bool) (owner : Option Nat) (bytes : List UInt8) :
      HasType structs nulls .str (.str owner bytes)
  | nullStr : HasType structs true .str .undef
  | ptr (nulls : Bool) (inner : TypeRef) (target : Option Place) :
      HasType structs nulls (.ptr inner) (.ptr target)
  | null (nulls : Bool) (target : Option Place) : HasType structs nulls .null (.ptr target)
  | ok {nulls : Bool} {inner : TypeRef} {payload : Value}
      (hpayload : HasType structs nulls inner payload) :
      HasType structs nulls (.result inner) (.aggregate [.bool true, payload])
  | err {nulls : Bool} {inner : TypeRef} {payload : Value}
      (hpayload : HasType structs true inner payload) :
      HasType structs nulls (.result inner) (.aggregate [.bool false, payload])
  | slice (nulls : Bool) (inner : TypeRef) (data : Option Place) (length : BitVec 64) :
      HasType structs nulls (.slice inner) (.aggregate [.ptr data, .int length])
  | array {nulls : Bool} {inner : TypeRef} {items : List Value}
      (hitems : ∀ (index : Nat) (item : Value), items[index]? = some item →
        HasType structs nulls inner item) :
      HasType structs nulls (.array inner items.length) (.aggregate items)
  | named {nulls : Bool} {moduleName name : Name} {decl : IrStruct} {items : List Value}
      (hfind : structs.find moduleName name = some decl)
      (hlength : items.length = decl.fields.length)
      (hitems : ∀ (index : Nat) (field : StructField) (item : Value),
        decl.fields[index]? = some field → items[index]? = some item →
        HasType structs nulls field.type item) :
      HasType structs nulls (.named moduleName name) (.aggregate items)

theorem itemsEqual_eq_allEqual {left right : List Value} (hlength : left.length = right.length) :
    Value.itemsEqual left right = allEqual (List.zipWith Value.equal left right) := by
  induction left generalizing right with
  | nil =>
      cases right with
      | nil => rfl
      | cons item right => cases hlength
  | cons item left ih =>
      cases right with
      | nil => cases hlength
      | cons other right =>
          rw [Value.itemsEqual, List.zipWith_cons_cons, allEqual,
            ih (Nat.succ.inj hlength)]
          cases Value.equal item other with
          | none => rfl
          | some same => cases allEqual (List.zipWith Value.equal left right) <;> rfl

theorem item?_aggregate (items : List Value) (index : Nat) :
    (Value.aggregate items).item? index = items[index]? := by
  rw [Value.item?, if_neg (by omega), Int.toNat_natCast]

theorem answers_members {regs : Regs} {bound : Nat} {items others : List Value}
    {emitters : List (Emit LlvmValue)} (hlength : emitters.length = items.length)
    (hsame : items.length = others.length)
    (heach : ∀ (index : Nat) emitter item other, emitters[index]? = some emitter →
      items[index]? = some item → others[index]? = some other →
      Answers emitter regs bound ((Value.equal item other).map .bool)) :
    Answers (emitAllEqual emitters) regs bound
      ((Value.equal (.aggregate items) (.aggregate others)).map .bool) := by
  rw [Value.equal, itemsEqual_eq_allEqual hsame]
  refine answers_allEqual (List.forall₂_iff_get.mpr ⟨?_, fun index hemitter hanswer => ?_⟩)
  · rw [List.length_zipWith]
    omega
  · rw [List.length_zipWith] at hanswer
    simp only [List.get_eq_getElem, List.getElem_zipWith]
    exact heach index _ _ _ (List.getElem?_eq_getElem hemitter)
      (List.getElem?_eq_getElem (by omega)) (List.getElem?_eq_getElem (by omega))

theorem equal_pair (first second first' second' : Value) :
    Value.equal (.aggregate [first, second]) (.aggregate [first', second']) =
      (Value.equal first first').bind fun a => (Value.equal second second').map fun b => a && b := by
  rw [Value.equal, Value.itemsEqual, Value.itemsEqual, Value.itemsEqual]
  cases Value.equal first first' with
  | none => rfl
  | some a =>
      cases Value.equal second second' with
      | none => rfl
      | some b => simp

theorem compares_result {onStruct : Name → Name → LlvmValue → LlvmValue → Emit LlvmValue}
    {inner : TypeRef} (flag flag' : Bool) {payload payload' : Value}
    (hpayload : Decides (emitEqualityWith onStruct inner) payload payload'
      (Value.equal payload payload')) :
    Decides (emitEqualityWith onStruct (.result inner)) (.aggregate [.bool flag, payload])
      (.aggregate [.bool flag', payload'])
      (Value.equal (.aggregate [.bool flag, payload]) (.aggregate [.bool flag', payload'])) := by
  intro regs bound first second hfirst hsecond
  rw [equal_pair, emitEqualityWith.eq_def]
  exact answers_both
    (answers_member .bool hfirst hsecond rfl rfl (compares_scalar rfl))
    (answers_member inner hfirst hsecond rfl rfl hpayload)

/-- The emitted comparison of two values of a type has the answer of `Value.equal`. -/
theorem emitEquality_compares {structs : StructTable} {nulls nulls' : Bool} {type : TypeRef}
    {left right : Value} (hleft : HasType structs nulls type left)
    (hright : HasType structs nulls' type right) (depth : Nat) :
    Decides (emitEqualityWith (emitStructEquality structs depth) type) left right
      (Value.equal left right) := by
  induction hleft generalizing right nulls' depth with
  | int nulls value | u8 nulls value | bool nulls value | ptr nulls inner target
  | null nulls target =>
      cases hright
      intro regs bound first second hfirst hsecond
      rw [emitEqualityWith.eq_def]
      exact compares_scalar rfl hfirst hsecond
  | str nulls owner bytes =>
      intro regs bound first second hfirst hsecond
      rw [emitEqualityWith.eq_def]
      cases hright with
      | str nulls' owner' bytes' => exact compares_str owner owner' bytes bytes' hfirst hsecond
      | nullStr => exact compares_null_str rfl hfirst hsecond
  | nullStr =>
      intro regs bound first second hfirst hsecond
      rw [emitEqualityWith.eq_def]
      cases hright with
      | str nulls' owner' bytes' => exact compares_null_str rfl hfirst hsecond
      | nullStr => exact compares_null_str rfl hfirst hsecond
  | ok hpayload ih =>
      cases hright with
      | ok hpayload' => exact compares_result true true (ih hpayload' depth)
      | err hpayload' => exact compares_result true false (ih hpayload' depth)
  | err hpayload ih =>
      cases hright with
      | ok hpayload' => exact compares_result false true (ih hpayload' depth)
      | err hpayload' => exact compares_result false false (ih hpayload' depth)
  | slice nulls inner data length =>
      cases hright with
      | slice nulls' _ data' length' =>
          intro regs bound first second hfirst hsecond
          rw [equal_pair, emitEqualityWith.eq_def]
          exact answers_both
            (answers_member (.ptr inner) hfirst hsecond rfl rfl (compares_scalar rfl))
            (answers_member .int hfirst hsecond rfl rfl (compares_scalar rfl))
  | @array nulls inner items hitems ih =>
      generalize hsize : items.length = size at hright
      cases hright with
      | @array nulls' _ others hothers =>
          intro regs bound first second hfirst hsecond
          rw [emitEqualityWith.eq_def]
          refine answers_members (by simp [hsize]) hsize fun index emitter item other hemitter hitem
            hother => ?_
          obtain ⟨_, rfl⟩ := List.getElem?_eq_some_iff.mp hemitter
          rw [List.getElem_map, List.getElem_range]
          exact answers_member inner hfirst hsecond ((item?_aggregate items index).trans hitem)
            ((item?_aggregate others index).trans hother)
            (ih index item hitem (hothers index other hother) depth)
  | @named nulls moduleName name decl items hfind hlength hitems ih =>
      cases hright with
      | @named nulls' _ _ decl' others hfind' hlength' hothers =>
          obtain rfl : decl = decl' := Option.some.inj (hfind.symm.trans hfind')
          intro regs bound first second hfirst hsecond
          rw [emitEqualityWith.eq_def]
          cases depth with
          | zero => exact .fail
          | succ depth =>
              have hsame : items.length = others.length := hlength.trans hlength'.symm
              intro state after operand code hrun
              obtain ⟨found, front, between, back, hfound, hrunAll, rfl⟩ :=
                Emit.bind_eq_some.mp hrun
              obtain ⟨hsome, rfl, rfl⟩ := Emit.ofOption_eq_some.mp hfound
              obtain rfl : decl = found := Option.some.inj (hfind.symm.trans hsome)
              refine answers_members ?_ hsame ?_ hrunAll
              · rw [List.length_map, List.length_zipIdx, hlength]
              · intro index emitter item other hemitter hitem hother
                obtain ⟨_, rfl⟩ := List.getElem?_eq_some_iff.mp hemitter
                rw [List.getElem_map, List.getElem_zipIdx]
                have hfield := List.getElem?_eq_getElem (l := decl.fields) (i := index) (by
                  have := (List.getElem?_eq_some_iff.mp hitem).1
                  omega)
                simp only [Nat.zero_add]
                exact answers_member _ hfirst hsecond ((item?_aggregate items index).trans hitem)
                  ((item?_aggregate others index).trans hother)
                  (ih index _ item hfield hitem (hothers index _ other hfield hother) depth)

end Llvm

end Cnegative
