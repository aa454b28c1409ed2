import Cnegative.Backend.Denotes
import Cnegative.Library.Triple

namespace Cnegative

open Library (Chain)

open Library.Runs

open Semantics

open Typing (TypeEnv exprTyped itemsTyped callTyped unaryTyped binaryTyped comparable isIntOrU8)

namespace Llvm

variable {ω : Type}

/-! A run goes wrong nowhere: it ends well, or the bound on its calls and rounds was too small. -/

abbrev Sound {α : Type} (pre : State ω → Prop) (run : Eval ω α) (post : α → State ω → Prop) :
    Prop :=
  Triple (fun fault => fault = .outOfFuel) pre run post

def Kept (frame : List Cell) (joint : Joint) (state : State ω) : Prop :=
  ∃ joint' : Joint, joint'.layout = joint.layout ∧ Housed frame joint' state

namespace Kept

variable {frame : List Cell} {joint : Joint} {state after : State ω}

theorem grow (hkept : Kept frame joint state) (hgrow : state.cells <+: after.cells) :
    Kept frame joint after := by
  obtain ⟨joint', hlayout, hheld⟩ := hkept
  exact ⟨joint', hlayout, hheld.grow hgrow⟩

theorem tail {entry : Name × Entry} (hkept : Kept frame (entry :: joint) state) :
    Kept frame joint state := by
  obtain ⟨joint', hlayout, hheld⟩ := hkept
  obtain ⟨entry', rest, rfl, -, hrest⟩ := Joint.layout_eq_cons hlayout
  exact ⟨rest, hrest, hheld.tail⟩

theorem drop {added : Joint} (hkept : Kept frame (added ++ joint) state) :
    Kept frame joint state := by
  induction added with
  | nil => exact hkept
  | cons entry rest ih => exact ih hkept.tail

theorem allocate (hkept : Kept frame joint state) {value : Value} {type : TypeRef}
    (htype : value.HasType type) (name : Name) (isMutable : Bool) :
    Kept frame ((name, ⟨type, isMutable, 0, state.cells.length, value⟩) :: joint)
      (state.allocate .stack value) := by
  obtain ⟨joint', hlayout, hheld⟩ := hkept
  refine ⟨_, ?_, hheld.allocate htype name isMutable⟩
  simp only [Joint.layout, List.map_cons] at hlayout ⊢
  rw [hlayout]

theorem frame_prefix (hkept : Kept frame joint state) : frame <+: state.cells := by
  obtain ⟨joint', -, hheld⟩ := hkept
  exact hheld.frame_prefix

end Kept

theorem evalUnary_total {type operandType : TypeRef} {op : UnaryOp} {operand : Value}
    (htyped : unaryTyped type op operandType = true) (hoperand : operand.HasType operandType)
    (state : State ω) : ∃ result, evalUnary op operand state = .ok result state := by
  cases op with
  | negate =>
      obtain rfl : operandType = .int := by simpa using (Bool.and_eq_true_iff.mp htyped).1
      cases hoperand
      exact ⟨_, rfl⟩
  | not =>
      obtain rfl : operandType = .bool := by simpa using (Bool.and_eq_true_iff.mp htyped).1
      cases hoperand
      exact ⟨_, rfl⟩

theorem divide_total {operation : BitVec 64 → BitVec 64 → BitVec 64} {left right : BitVec 64}
    (hzero : right ≠ 0) (hminus : right ≠ -1) (state : State ω) :
    divide operation left right state = .ok (.int (operation left right)) state := by
  rw [divide, if_neg hzero, if_neg fun hboth => hminus hboth.2]
  rfl

theorem equal_total {left right : Value} {leftType rightType : TypeRef}
    (htyped : comparable leftType rightType = true) (hvoid : leftType ≠ .void)
    (hleft : left.HasType leftType) (hright : right.HasType rightType) (state : State ω) :
    ∃ truth, Eval.equal left right state = .ok truth state := by
  cases hleft with
  | void => exact absurd rfl hvoid
  | int | u8 | bool =>
      cases hright <;> first | exact ⟨_, rfl⟩ | simp [comparable, TypeRef.isPtr] at htyped

theorem compare_total {signed : Int → Int → Bool} {left right : Value}
    {leftType rightType : TypeRef} (hkind : isIntOrU8 leftType = true)
    (hsame : leftType = rightType) (hleft : left.HasType leftType)
    (hright : right.HasType rightType) (state : State ω) :
    ∃ result, compare signed left right state = .ok result state := by
  subst hsame
  cases hleft with
  | int | u8 =>
      cases hright
      exact ⟨_, rfl⟩
  | bool | void => simp [isIntOrU8] at hkind

theorem evalBinary_total {type leftType rightType : TypeRef} {op : BinaryOp} {left right : Value}
    (htyped : binaryTyped type op leftType rightType = true)
    (hdivisor : op = .div ∨ op = .mod → ∃ divisor, right = .int divisor ∧ divisor ≠ 0 ∧
      divisor ≠ -1)
    (hvoid : op = .equal ∨ op = .notEqual → leftType ≠ .void) (hand : op ≠ .and) (hor : op ≠ .or)
    (hleft : left.HasType leftType) (hright : right.HasType rightType) (state : State ω) :
    ∃ result, evalBinary op left right state = .ok result state := by
  cases op with
  | add | sub | mul =>
      simp only [binaryTyped, Bool.and_eq_true, decide_eq_true_eq] at htyped
      obtain ⟨⟨rfl, rfl⟩, -⟩ := htyped
      cases hleft
      cases hright
      exact ⟨_, rfl⟩
  | div =>
      simp only [binaryTyped, Bool.and_eq_true, decide_eq_true_eq] at htyped
      obtain ⟨⟨rfl, rfl⟩, -⟩ := htyped
      obtain ⟨divisor, rfl, hzero, hminus⟩ := hdivisor (.inl rfl)
      cases hleft
      exact ⟨_, divide_total hzero hminus state⟩
  | mod =>
      simp only [binaryTyped, Bool.and_eq_true, decide_eq_true_eq] at htyped
      obtain ⟨⟨rfl, rfl⟩, -⟩ := htyped
      obtain ⟨divisor, rfl, hzero, hminus⟩ := hdivisor (.inr rfl)
      cases hleft
      exact ⟨_, divide_total hzero hminus state⟩
  | equal =>
      obtain ⟨truth, htruth⟩ := equal_total (Bool.and_eq_true_iff.mp htyped).1 (hvoid (.inl rfl))
        hleft hright state
      exact ⟨_, bind_of_ok htruth⟩
  | notEqual =>
      obtain ⟨truth, htruth⟩ := equal_total (Bool.and_eq_true_iff.mp htyped).1 (hvoid (.inr rfl))
        hleft hright state
      exact ⟨_, bind_of_ok htruth⟩
  | less | lessEqual | greater | greaterEqual =>
      simp only [binaryTyped, Bool.and_eq_true, decide_eq_true_eq] at htyped
      simp only [evalBinary]
      exact compare_total htyped.1.1 htyped.1.2 hleft hright state
  | and => exact absurd rfl hand
  | or => exact absurd rfl hor

/-- The calls of a program end well, leave the cells of their callers alone and return values of
their types. -/
def SoundCallee (program : IrProgram) (fragment : Fragment) (callee : Callee ω) : Prop :=
  ∀ ⦃type target moduleName functionName types arguments⦄,
    callTyped program type target moduleName functionName types = true →
    callOffered fragment type target moduleName functionName types = true →
    List.Forall₂ Value.HasType arguments types →
    ∀ cells : List Cell, Sound (fun state => cells <+: state.cells)
      (callee target moduleName functionName arguments)
      (fun value state => cells <+: state.cells ∧ value.HasType type)

section

variable {program : IrProgram} {fragment : Fragment} {callee : Callee ω} {structs : StructTable}
  {frame : List Cell} {joint : Joint} {env : Env} {types : TypeEnv}

theorem asBool_sound {pre : State ω → Prop} {value : Value} (hvalue : value.HasType .bool) :
    Sound pre value.asBool (fun _ state => pre state) := by
  cases hvalue
  exact .pure fun _ hpre => hpre

theorem choose_sound {α : Type} {pre : State ω → Prop} {test : Eval ω Value}
    {branch : Bool → Eval ω α} {post : α → State ω → Prop}
    (htest : Sound pre test (fun value state => pre state ∧ value.HasType .bool))
    (hbranch : ∀ truth, Sound pre (branch truth) post) :
    Sound pre (do branch (← (← test).asBool)) post :=
  htest.bind fun _ => .of_and fun hvalue => (asBool_sound hvalue).bind hbranch

theorem evalCall_sound (hcallee : SoundCallee program fragment callee) {type : TypeRef}
    {target : CallTarget} {moduleName functionName : Name} {argumentTypes : List TypeRef}
    {arguments : List Value}
    (htyped : callTyped program type target moduleName functionName argumentTypes = true)
    (hoffered : callOffered fragment type target moduleName functionName argumentTypes = true)
    (harguments : List.Forall₂ Value.HasType arguments argumentTypes) :
    Sound (Kept frame joint) (evalCall callee target moduleName functionName arguments)
      (fun value state => Kept frame joint state ∧ value.HasType type) := by
  intro state hkept
  have hrelease : isZoneRelease target moduleName functionName = false := by
    cases target with
    | builtin => simpa using (Bool.and_eq_true_iff.mp hoffered).2
    | «local» | module => rfl
  have hlog : Eval.log (.call target moduleName functionName arguments) state =
      .ok () (state.log (.call target moduleName functionName arguments)) := rfl
  simp only [evalCall, hrelease, Bool.false_eq_true, if_false]
  rw [bind_of_ok hlog]
  have hlogged : state.cells <+:
      (state.log (.call target moduleName functionName arguments)).cells := List.prefix_rfl
  obtain ⟨hok, herror⟩ := hcallee htyped hoffered harguments state.cells hlogged
  exact ⟨fun value after hrun => ⟨hkept.grow (hok hrun).1, (hok hrun).2⟩, herror⟩

theorem local_sound (hplaced : Placed joint env types) {type : TypeRef} {name : Name}
    (htyped : types.typeOf? name = some type) :
    Sound (Kept frame joint) (denote structs callee env (.local type name)).value
      (fun value state => Kept frame joint state ∧ value.HasType type) := by
  refine .of_ok fun state hkept => ?_
  obtain ⟨joint', hlayout, hheld⟩ := hkept
  obtain ⟨found, hfound, rfl⟩ := Option.map_eq_some_iff.mp htyped
  have hfind : (Chain.find? types name).map Prod.snd = some found.2 := by rw [hfound]; rfl
  have hplaced' := hplaced.layout hlayout
  obtain ⟨entry, hlookup, htype⟩ := hplaced'.entry_of_find hfind
  obtain ⟨front, behind, hjoint, -⟩ := List.lookup_eq_some_iff.mp hlookup
  have hentry : (name, entry) ∈ joint' := by simp [hjoint]
  refine ⟨entry.value, state, ?_, ⟨joint', hlayout, hheld⟩, ?_⟩
  · rw [denote]
    exact (bind_of_ok (hplaced'.place hlookup state)).trans (load_eq (hheld.cell _ hentry))
  · rw [htype]
    exact hheld.hasType _ hentry

theorem divisor_of_total {op : BinaryOp} {type leftType : TypeRef} {left right : IrExpr}
    (htotal : operandsTotal op left right = true)
    (htyped : binaryTyped type op leftType right.type = true) {value : Value}
    {state after : State ω} (hrun : (denote structs callee env right).value state = .ok value after)
    (hop : op = .div ∨ op = .mod) :
    ∃ divisor, value = .int divisor ∧ divisor ≠ 0 ∧ divisor ≠ -1 := by
  have hdivisor : divisorTotal right = true ∧ right.type = .int := by
    rcases hop with rfl | rfl
    · simp only [binaryTyped, Bool.and_eq_true, decide_eq_true_eq] at htyped
      exact ⟨htotal, htyped.1.2⟩
    · simp only [binaryTyped, Bool.and_eq_true, decide_eq_true_eq] at htyped
      exact ⟨htotal, htyped.1.2⟩
  obtain ⟨hliteral, htype⟩ := hdivisor
  cases right with
  | int type number =>
      obtain rfl : type = .int := htype
      rw [denote] at hrun
      obtain ⟨rfl, -⟩ := pure_eq_ok.mp hrun
      simp only [divisorTotal, Bool.and_eq_true, decide_eq_true_eq] at hliteral
      exact ⟨number, rfl, hliteral.1, hliteral.2⟩
  | bool | string | null | «local» | unary | binary | ifExpr | call | arrayLiteral | sliceFromArray
  | index | sliceView | field | structLiteral | ok | err | alloc | zalloc | addr | deref =>
      cases hliteral

theorem ne_void_of_total {op : BinaryOp} {left right : IrExpr}
    (htotal : operandsTotal op left right = true) (hop : op = .equal ∨ op = .notEqual) :
    left.type ≠ .void := by
  rcases hop with rfl | rfl <;> simpa [operandsTotal] using htotal

mutual

theorem denote_sound (hcallee : SoundCallee program fragment callee) (htotal : fragment.IsTotal)
    (hplaced : Placed joint env types) :
    (expression : IrExpr) → exprTyped program types expression = true →
      expression.isCore fragment = true →
        Sound (Kept frame joint) (denote structs callee env expression).value
          (fun value state => Kept frame joint state ∧ value.HasType expression.type)
  | .int type value, htyped, _ => by
      have hvalue : (Value.ofInt type value).HasType type := by
        simp only [exprTyped, Bool.or_eq_true, Bool.and_eq_true, decide_eq_true_eq] at htyped
        rcases htyped with rfl | ⟨rfl, -⟩
        · exact .int _
        · exact .u8 _
      rw [denote]
      exact .pure fun _ hkept => ⟨hkept, hvalue⟩
  | .bool type value, htyped, _ => by
      obtain rfl : type = .bool := by simpa [exprTyped] using htyped
      rw [denote]
      exact .pure fun _ hkept => ⟨hkept, .bool value⟩
  | .local type name, htyped, _ => local_sound hplaced (by simpa [exprTyped] using htyped)
  | .unary type op operand, htyped, hcore => by
      simp only [exprTyped, Bool.and_eq_true] at htyped
      rw [IrExpr.isCore] at hcore
      rw [denote]
      refine (denote_sound hcallee htotal hplaced operand htyped.1 hcore).bind fun value =>
        .of_and fun hvalue => .of_ok fun state hkept => ?_
      obtain ⟨result, hresult⟩ := evalUnary_total htyped.2 hvalue state
      exact ⟨result, state, hresult, hkept,
        applyUnary_hasType htyped.2 (evalUnary_applies hresult).1⟩
  | .binary type op left right, htyped, hcore => by
      simp only [exprTyped, Bool.and_eq_true] at htyped
      simp only [IrExpr.isCore, Bool.and_eq_true] at hcore
      obtain ⟨⟨hleftTyped, hrightTyped⟩, hbinary⟩ := htyped
      obtain ⟨⟨hleftCore, hrightCore⟩, hoperands⟩ := hcore
      have hleft := denote_sound hcallee htotal hplaced left hleftTyped hleftCore
      have hright := denote_sound hcallee htotal hplaced right hrightTyped hrightCore
      have hguard := htotal op left right hoperands
      cases op with
      | and =>
          simp only [binaryTyped, Bool.and_eq_true, decide_eq_true_eq] at hbinary
          obtain ⟨⟨hleftType, hrightType⟩, rfl⟩ := hbinary
          rw [hleftType] at hleft
          rw [hrightType] at hright
          rw [denote]
          refine choose_sound hleft fun truth => ?_
          cases truth with
          | true => exact hright
          | false => exact .pure fun _ hkept => ⟨hkept, .bool false⟩
      | or =>
          simp only [binaryTyped, Bool.and_eq_true, decide_eq_true_eq] at hbinary
          obtain ⟨⟨hleftType, hrightType⟩, rfl⟩ := hbinary
          rw [hleftType] at hleft
          rw [hrightType] at hright
          rw [denote]
          refine choose_sound hleft fun truth => ?_
          cases truth with
          | true => exact .pure fun _ hkept => ⟨hkept, .bool true⟩
          | false => exact hright
      | add | sub | mul | div | mod | equal | notEqual | less | lessEqual | greater
      | greaterEqual =>
          simp only [denote]
          refine hleft.bind fun first => .of_and fun hfirst =>
            (hright.strengthen fun _ _ _ => divisor_of_total hguard hbinary).bind fun second =>
              .of_and fun hdivisor => .of_and fun hsecond => .of_ok fun state hkept => ?_
          obtain ⟨result, hresult⟩ := evalBinary_total hbinary hdivisor (ne_void_of_total hguard)
            (by simp) (by simp) hfirst hsecond state
          exact ⟨result, state, hresult, hkept, applyBinary_hasType hbinary hfirst hsecond
            (evalBinary_applies hfirst hsecond hresult).1⟩
  | .ifExpr type condition thenExpr elseExpr, htyped, hcore => by
      simp only [exprTyped, Bool.and_eq_true, decide_eq_true_eq] at htyped
      simp only [IrExpr.isCore, Bool.and_eq_true] at hcore
      obtain ⟨⟨⟨⟨⟨hconditionTyped, hthenTyped⟩, helseTyped⟩, hconditionType⟩, hthenType⟩,
        helseType⟩ := htyped
      have hcondition := denote_sound hcallee htotal hplaced condition hconditionTyped hcore.1.1
      have hthen := denote_sound hcallee htotal hplaced thenExpr hthenTyped hcore.1.2
      have helse := denote_sound hcallee htotal hplaced elseExpr helseTyped hcore.2
      rw [hconditionType] at hcondition
      rw [hthenType] at hthen
      rw [helseType] at helse
      rw [denote]
      refine choose_sound hcondition fun truth => ?_
      cases truth with
      | true => exact hthen
      | false => exact helse
  | .call type target moduleName functionName arguments, htyped, hcore => by
      simp only [exprTyped, Bool.and_eq_true] at htyped
      simp only [IrExpr.isCore, Bool.and_eq_true] at hcore
      rw [denote]
      exact (denoteItems_sound hcallee htotal hplaced arguments htyped.1 hcore.1).bind fun values =>
        .of_and fun hvalues => evalCall_sound hcallee htyped.2 hcore.2 hvalues
  | .string _ _, _, hcore | .null _, _, hcore | .arrayLiteral _ _, _, hcore
  | .sliceFromArray _ _, _, hcore | .index _ _ _, _, hcore | .sliceView _ _ _ _, _, hcore
  | .field _ _ _, _, hcore | .structLiteral _ _ _ _, _, hcore | .ok _ _, _, hcore
  | .err _, _, hcore | .alloc _ _, _, hcore | .zalloc _ _ _, _, hcore | .addr _ _, _, hcore
  | .deref _ _, _, hcore => by simp [IrExpr.isCore] at hcore

theorem denoteItems_sound (hcallee : SoundCallee program fragment callee)
    (htotal : fragment.IsTotal) (hplaced : Placed joint env types) :
    (items : List IrExpr) → itemsTyped program types items = true →
      allCore fragment items = true →
        Sound (Kept frame joint) (denoteItems structs callee env items)
          (fun values state => Kept frame joint state ∧
            List.Forall₂ Value.HasType values (items.map IrExpr.type))
  | [], _, _ => by
      rw [denoteItems]
      exact .pure fun _ hkept => ⟨hkept, .nil⟩
  | item :: rest, htyped, hcore => by
      simp only [itemsTyped, Bool.and_eq_true] at htyped
      simp only [allCore, Bool.and_eq_true] at hcore
      rw [denoteItems]
      exact (denote_sound hcallee htotal hplaced item htyped.1 hcore.1).bind fun value =>
        .of_and fun hvalue =>
          (denoteItems_sound hcallee htotal hplaced rest htyped.2 hcore.2).bind fun values =>
            .of_and fun hvalues => .pure fun _ hkept => ⟨hkept, .cons hvalue hvalues⟩

end

end

end Llvm

end Cnegative
