import Cnegative.Backend.Housed

namespace Cnegative

open Library (Chain)

open Library.Runs (bind_eq_ok pure_eq_ok)

open Scalar (Oracle Outside applyUnary applyBinary applyInts applyBytes applyBools called eval
  evalAll)

open Semantics

open Typing (TypeEnv exprTyped itemsTyped callTyped unaryTyped binaryTyped)

namespace Llvm

variable {ω : Type}

/-! An expression that has a value in the memory has it without memory too. -/

theorem applyUnary_hasType {type operandType : TypeRef} {op : UnaryOp} {operand result : Value}
    (htyped : unaryTyped type op operandType = true)
    (happly : applyUnary op operand = some result) : result.HasType type := by
  cases op with
  | negate =>
      obtain rfl : type = .int := by simpa using (Bool.and_eq_true_iff.mp htyped).2
      cases operand <;> cases happly
      exact .int _
  | not =>
      obtain rfl : type = .bool := by simpa using (Bool.and_eq_true_iff.mp htyped).2
      cases operand <;> cases happly
      exact .bool _

theorem applyInts_hasType {type leftType rightType : TypeRef} {op : BinaryOp}
    {left right : BitVec 64} {result : Value}
    (htyped : binaryTyped type op leftType rightType = true)
    (happly : applyInts op left right = some result) : result.HasType type := by
  cases op with
  | add | sub | mul =>
      obtain rfl : type = .int := by simpa using (Bool.and_eq_true_iff.mp htyped).2
      cases happly
      exact .int _
  | div | mod =>
      obtain rfl : type = .int := by simpa using (Bool.and_eq_true_iff.mp htyped).2
      obtain ⟨rfl, -⟩ := quotient_eq_some happly
      exact .int _
  | equal | notEqual | less | lessEqual | greater | greaterEqual =>
      obtain rfl : type = .bool := by simpa using (Bool.and_eq_true_iff.mp htyped).2
      cases happly
      exact .bool _
  | and | or => cases happly

theorem applyBytes_hasType {type leftType rightType : TypeRef} {op : BinaryOp}
    {left right : BitVec 8} {result : Value}
    (htyped : binaryTyped type op leftType rightType = true)
    (happly : applyBytes op left right = some result) : result.HasType type := by
  cases op with
  | equal | notEqual | less | lessEqual | greater | greaterEqual =>
      obtain rfl : type = .bool := by simpa using (Bool.and_eq_true_iff.mp htyped).2
      cases happly
      exact .bool _
  | add | sub | mul | div | mod | and | or => cases happly

theorem applyBools_hasType {type leftType rightType : TypeRef} {op : BinaryOp} {left right : Bool}
    {result : Value} (htyped : binaryTyped type op leftType rightType = true)
    (happly : applyBools op left right = some result) : result.HasType type := by
  cases op with
  | equal | notEqual =>
      obtain rfl : type = .bool := by simpa using (Bool.and_eq_true_iff.mp htyped).2
      cases happly
      exact .bool _
  | add | sub | mul | div | mod | less | lessEqual | greater | greaterEqual | and | or =>
      cases happly

theorem applyBinary_hasType {type leftType rightType : TypeRef} {op : BinaryOp}
    {left right result : Value} (htyped : binaryTyped type op leftType rightType = true)
    (hleft : left.HasType leftType) (hright : right.HasType rightType)
    (happly : applyBinary op left right = some result) : result.HasType type := by
  cases hleft with
  | int first =>
      cases hright <;> first | exact applyInts_hasType htyped happly | cases happly
  | u8 first =>
      cases hright <;> first | exact applyBytes_hasType htyped happly | cases happly
  | bool first =>
      cases hright <;> first | exact applyBools_hasType htyped happly | cases happly
  | void => cases happly

/-- The calls of a program in the memory are answered as the oracle answers them, and they leave
the cells of their callers alone. -/
def Follows (program : IrProgram) (fragment : Fragment) (oracle : Oracle ω) (callee : Callee ω) :
    Prop :=
  ∀ ⦃type target moduleName functionName types arguments state value after⦄,
    callTyped program type target moduleName functionName types = true →
    callOffered fragment type target moduleName functionName types = true →
    List.Forall₂ Value.HasType arguments types →
    callee target moduleName functionName arguments state = .ok value after →
      ∃ call, called type target moduleName functionName arguments = some call ∧
        oracle.call type call.1 call.2 state.world = some (value, after.world) ∧
        state.cells <+: after.cells

section

variable {α β : Type}

def Evaluates (frame : List Cell) (joint : Joint) (run : Eval ω α)
    (meaning : Outside ω → Option (α × Outside ω)) (post : α → Prop) : Prop :=
  ∀ ⦃state after value outside⦄, Housed frame joint state → outside.world = state.world →
    run state = .ok value after →
      ∃ outside', meaning outside = some (value, outside') ∧ outside'.world = after.world ∧
        state.cells <+: after.cells ∧ post value

namespace Evaluates

variable {frame : List Cell} {joint : Joint} {run : Eval ω α}
  {meaning : Outside ω → Option (α × Outside ω)} {post : α → Prop}

theorem pure {value : α} (heq : ∀ outside, meaning outside = some (value, outside))
    (hpost : post value) : Evaluates frame joint (pure value : Eval ω α) meaning post := by
  intro state after result outside _ hworld hrun
  obtain ⟨rfl, rfl⟩ := pure_eq_ok.mp hrun
  exact ⟨outside, heq outside, hworld, List.prefix_rfl, hpost⟩

theorem bind {next : α → Eval ω β} {nextPost : β → Prop}
    {meaning' : Outside ω → Option (β × Outside ω)}
    (nextMeaning : α → Outside ω → Option (β × Outside ω))
    (hrun : Evaluates frame joint run meaning post)
    (hnext : ∀ value, post value →
      Evaluates frame joint (next value) (nextMeaning value) nextPost)
    (heq : ∀ outside value outside', meaning outside = some (value, outside') →
      meaning' outside = nextMeaning value outside') :
    Evaluates frame joint (run >>= next) meaning' nextPost := by
  intro state after result outside hheld hworld hboth
  obtain ⟨value, middle, hfirst, hsecond⟩ := bind_eq_ok.mp hboth
  obtain ⟨outside', hmeaning, hworld', hgrow, hpost⟩ := hrun hheld hworld hfirst
  obtain ⟨outside'', hmeaning', hworld'', hgrow', hpost'⟩ :=
    hnext value hpost (hheld.grow hgrow) hworld' hsecond
  exact ⟨outside'', (heq outside value outside' hmeaning).trans hmeaning', hworld'',
    hgrow.trans hgrow', hpost'⟩

theorem apply {found : Option α}
    (hrun : ∀ ⦃state value after⦄, run state = .ok value after →
      found = some value ∧ state = after)
    (hpost : ∀ value, found = some value → post value) :
    Evaluates frame joint run (fun outside => found.map fun value => (value, outside)) post := by
  intro state after value outside _ hworld hok
  obtain ⟨hfound, rfl⟩ := hrun hok
  exact ⟨outside, Option.map_eq_some_iff.mpr ⟨value, hfound, rfl⟩, hworld, List.prefix_rfl,
    hpost value hfound⟩

/-- A choice between two runs. -/
theorem choose {test : Eval ω Value} {branch : Bool → Eval ω α}
    {testMeaning : Outside ω → Option (Value × Outside ω)}
    (branchMeaning : Bool → Outside ω → Option (α × Outside ω))
    (htest : Evaluates frame joint test testMeaning (fun value => value.HasType .bool))
    (hbranch : ∀ truth, Evaluates frame joint (branch truth) (branchMeaning truth) post)
    (heq : ∀ outside truth outside', testMeaning outside = some (.bool truth, outside') →
      meaning outside = branchMeaning truth outside') :
    Evaluates frame joint (do branch (← (← test).asBool)) meaning post := by
  intro state after result outside hheld hworld hrun
  obtain ⟨value, middle, hvalue, hrun⟩ := bind_eq_ok.mp hrun
  obtain ⟨truth, tested, htruth, hchosen⟩ := bind_eq_ok.mp hrun
  obtain ⟨rfl, rfl⟩ := asBool_eq_ok_iff.mp htruth
  obtain ⟨outside', hmeaning, hworld', hgrow, -⟩ := htest hheld hworld hvalue
  obtain ⟨outside'', hmeaning', hworld'', hgrow', hpost⟩ :=
    hbranch truth (hheld.grow hgrow) hworld' hchosen
  exact ⟨outside'', (heq outside truth outside' hmeaning).trans hmeaning', hworld'',
    hgrow.trans hgrow', hpost⟩

end Evaluates

end

section

variable {program : IrProgram} {fragment : Fragment} {oracle : Oracle ω} {callee : Callee ω}
  {structs : StructTable} {frame : List Cell} {joint : Joint} {env : Env} {types : TypeEnv}

theorem evalCall_evaluates (hfollows : Follows program fragment oracle callee) {type : TypeRef}
    {target : CallTarget} {moduleName functionName : Name} {argumentTypes : List TypeRef}
    {arguments : List Value}
    (htyped : callTyped program type target moduleName functionName argumentTypes = true)
    (hoffered : callOffered fragment type target moduleName functionName argumentTypes = true)
    (harguments : List.Forall₂ Value.HasType arguments argumentTypes) :
    Evaluates frame joint (evalCall callee target moduleName functionName arguments)
      (fun outside => (called type target moduleName functionName arguments).bind fun call =>
        oracle.answer type call.1 call.2 outside) (fun value => value.HasType type) := by
  intro state after value outside hheld hworld hrun
  have hrelease : isZoneRelease target moduleName functionName = false := by
    cases target with
    | builtin => simpa using (Bool.and_eq_true_iff.mp hoffered).2
    | «local» | module => rfl
  simp only [evalCall, hrelease, Bool.false_eq_true, if_false] at hrun
  obtain ⟨_, middle, hlog, hcall⟩ := bind_eq_ok.mp hrun
  cases hlog
  obtain ⟨call, hcalled, hanswer, hgrow⟩ := hfollows htyped hoffered harguments hcall
  refine ⟨⟨after.world, call :: outside.calls⟩, ?_, rfl, hgrow, oracle.hasType hanswer⟩
  have hanswer' : oracle.call type call.1 call.2 outside.world = some (value, after.world) := by
    rw [hworld]
    exact hanswer
  exact Option.bind_eq_some_iff.mpr ⟨call, hcalled,
    Option.map_eq_some_iff.mpr ⟨_, hanswer', rfl⟩⟩

theorem local_place (hplaced : Placed joint env types) (type : TypeRef) {name : Name}
    {entry : Entry} (hlookup : joint.lookup name = some entry) (state : State ω) :
    (denote structs callee env (.local type name)).place state = .ok ⟨entry.slot, []⟩ state := by
  rw [denote]
  exact hplaced.place hlookup state

theorem local_evaluates (hplaced : Placed joint env types) {type : TypeRef} {name : Name}
    (htyped : types.typeOf? name = some type) :
    Evaluates frame joint (denote structs callee env (.local type name)).value
      (eval oracle joint.store (.local type name)) (fun value => value.HasType type) := by
  intro state after value outside hheld hworld hrun
  obtain ⟨found, hfound, rfl⟩ := Option.map_eq_some_iff.mp htyped
  have hfind : (Chain.find? types name).map Prod.snd = some found.2 := by rw [hfound]; rfl
  obtain ⟨entry, hlookup, htype⟩ := hplaced.entry_of_find hfind
  obtain ⟨front, behind, hjoint, -⟩ := List.lookup_eq_some_iff.mp hlookup
  have hentry : (name, entry) ∈ joint := by simp [hjoint]
  rw [denote] at hrun
  obtain ⟨place, middle, hplace, hload⟩ := bind_eq_ok.mp hrun
  rw [hplaced.place hlookup] at hplace
  cases hplace
  rw [load_eq (hheld.cell _ hentry)] at hload
  cases hload
  refine ⟨outside, ?_, hworld, List.prefix_rfl, ?_⟩
  · rw [eval, Joint.store, Joint.lookup_map, hlookup]
    rfl
  · rw [htype]
    exact hheld.hasType _ hentry

mutual

theorem denote_evaluates (hfollows : Follows program fragment oracle callee)
    (hplaced : Placed joint env types) :
    (expression : IrExpr) → exprTyped program types expression = true →
      expression.isCore fragment = true →
        Evaluates frame joint (denote structs callee env expression).value
          (eval oracle joint.store expression) (fun value => value.HasType expression.type)
  | .int type value, htyped, _ => by
      have hpost : (Value.ofInt type value).HasType type := by
        simp only [exprTyped, Bool.or_eq_true, Bool.and_eq_true, decide_eq_true_eq] at htyped
        rcases htyped with rfl | ⟨rfl, -⟩
        · exact .int _
        · exact .u8 _
      rw [denote]
      exact .pure (fun _ => by rw [eval]) hpost
  | .bool type value, htyped, _ => by
      obtain rfl : type = .bool := by simpa [exprTyped] using htyped
      rw [denote]
      exact .pure (fun _ => by rw [eval]) (.bool value)
  | .local type name, htyped, _ => local_evaluates hplaced (by simpa [exprTyped] using htyped)
  | .unary type op operand, htyped, hcore => by
      simp only [exprTyped, Bool.and_eq_true] at htyped
      rw [IrExpr.isCore] at hcore
      have hoperand := denote_evaluates hfollows hplaced operand htyped.1 hcore
      rw [denote]
      refine .bind (fun value outside => (applyUnary op value).map fun result => (result, outside))
        hoperand (fun value _ => ?_) fun outside value outside' heval => by rw [eval, heval]; rfl
      exact .apply (fun _ _ _ hrun => evalUnary_applies hrun)
        fun _ happly => applyUnary_hasType htyped.2 happly
  | .binary type op left right, htyped, hcore => by
      simp only [exprTyped, Bool.and_eq_true] at htyped
      simp only [IrExpr.isCore, Bool.and_eq_true] at hcore
      obtain ⟨⟨hleftTyped, hrightTyped⟩, hbinary⟩ := htyped
      have hleft := denote_evaluates hfollows hplaced left hleftTyped hcore.1.1
      have hright := denote_evaluates hfollows hplaced right hrightTyped hcore.1.2
      cases op with
      | and =>
          simp only [binaryTyped, Bool.and_eq_true, decide_eq_true_eq] at hbinary
          obtain ⟨⟨hleftType, hrightType⟩, rfl⟩ := hbinary
          rw [hleftType] at hleft
          rw [hrightType] at hright
          rw [denote]
          refine .choose (fun truth outside =>
              if truth then eval oracle joint.store right outside else some (.bool false, outside))
            hleft (fun truth => ?_) fun outside truth outside' heval => ?_
          · cases truth with
            | true => exact hright
            | false => exact .pure (fun _ => rfl) (.bool false)
          · rw [eval, heval]
            cases truth <;> rfl
      | or =>
          simp only [binaryTyped, Bool.and_eq_true, decide_eq_true_eq] at hbinary
          obtain ⟨⟨hleftType, hrightType⟩, rfl⟩ := hbinary
          rw [hleftType] at hleft
          rw [hrightType] at hright
          rw [denote]
          refine .choose (fun truth outside =>
              if truth then some (.bool true, outside) else eval oracle joint.store right outside)
            hleft (fun truth => ?_) fun outside truth outside' heval => ?_
          · cases truth with
            | true => exact .pure (fun _ => rfl) (.bool true)
            | false => exact hright
          · rw [eval, heval]
            cases truth <;> rfl
      | add | sub | mul | div | mod | equal | notEqual | less | lessEqual | greater
      | greaterEqual =>
          simp only [denote]
          refine .bind (fun first outside =>
              (eval oracle joint.store right outside).bind fun second =>
                (applyBinary _ first second.1).map fun value => (value, second.2))
            hleft (fun first hfirst => ?_) fun outside value outside' heval => by
              rw [eval, heval]; rfl
          refine .bind (fun second outside =>
              (applyBinary _ first second).map fun value => (value, outside))
            hright (fun second hsecond => ?_) fun outside value outside' heval => by
              rw [heval]; rfl
          exact .apply (fun _ _ _ hrun => evalBinary_applies hfirst hsecond hrun)
            fun _ happly => applyBinary_hasType hbinary hfirst hsecond happly
  | .ifExpr type condition thenExpr elseExpr, htyped, hcore => by
      simp only [exprTyped, Bool.and_eq_true, decide_eq_true_eq] at htyped
      simp only [IrExpr.isCore, Bool.and_eq_true] at hcore
      obtain ⟨⟨⟨⟨⟨hconditionTyped, hthenTyped⟩, helseTyped⟩, hconditionType⟩, hthenType⟩,
        helseType⟩ := htyped
      have hcondition := denote_evaluates hfollows hplaced condition hconditionTyped hcore.1.1
      have hthen := denote_evaluates hfollows hplaced thenExpr hthenTyped hcore.1.2
      have helse := denote_evaluates hfollows hplaced elseExpr helseTyped hcore.2
      rw [hconditionType] at hcondition
      rw [hthenType] at hthen
      rw [helseType] at helse
      rw [denote]
      refine .choose (fun truth outside =>
          if truth then eval oracle joint.store thenExpr outside
          else eval oracle joint.store elseExpr outside)
        hcondition (fun truth => ?_) fun outside truth outside' heval => ?_
      · cases truth with
        | true => exact hthen
        | false => exact helse
      · rw [eval, heval]
        cases truth <;> rfl
  | .call type target moduleName functionName arguments, htyped, hcore => by
      simp only [exprTyped, Bool.and_eq_true] at htyped
      simp only [IrExpr.isCore, Bool.and_eq_true] at hcore
      have harguments := denoteItems_evaluates hfollows hplaced arguments htyped.1 hcore.1
      rw [denote]
      refine .bind (fun values outside =>
          (called type target moduleName functionName values).bind fun call =>
            oracle.answer type call.1 call.2 outside)
        harguments (fun values hvalues => ?_) fun outside values outside' heval => by
          rw [eval, heval]; rfl
      exact evalCall_evaluates hfollows htyped.2 hcore.2 hvalues
  | .string _ _, _, hcore | .null _, _, hcore | .arrayLiteral _ _, _, hcore
  | .sliceFromArray _ _, _, hcore | .index _ _ _, _, hcore | .sliceView _ _ _ _, _, hcore
  | .field _ _ _, _, hcore | .structLiteral _ _ _ _, _, hcore | .ok _ _, _, hcore
  | .err _, _, hcore | .alloc _ _, _, hcore | .zalloc _ _ _, _, hcore | .addr _ _, _, hcore
  | .deref _ _, _, hcore => by simp [IrExpr.isCore] at hcore

theorem denoteItems_evaluates (hfollows : Follows program fragment oracle callee)
    (hplaced : Placed joint env types) :
    (items : List IrExpr) → itemsTyped program types items = true → allCore fragment items = true →
      Evaluates frame joint (denoteItems structs callee env items)
        (evalAll oracle joint.store items)
        (fun values => List.Forall₂ Value.HasType values (items.map IrExpr.type))
  | [], _, _ => by
      rw [denoteItems]
      exact .pure (fun _ => by rw [evalAll]) .nil
  | item :: rest, htyped, hcore => by
      simp only [itemsTyped, Bool.and_eq_true] at htyped
      simp only [allCore, Bool.and_eq_true] at hcore
      have hitem := denote_evaluates hfollows hplaced item htyped.1 hcore.1
      have hrest := denoteItems_evaluates hfollows hplaced rest htyped.2 hcore.2
      rw [denoteItems]
      refine .bind (fun value outside =>
          (evalAll oracle joint.store rest outside).map fun tail => (value :: tail.1, tail.2))
        hitem (fun value hvalue => ?_) fun outside value outside' heval => by
          rw [evalAll, heval]; rfl
      refine .bind (fun values outside => some (value :: values, outside))
        hrest (fun values hvalues => ?_) fun outside values outside' heval => by rw [heval]; rfl
      exact .pure (fun _ => rfl) (.cons hvalue hvalues)

end

end

end Llvm

end Cnegative
