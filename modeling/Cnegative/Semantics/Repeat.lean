import Cnegative.Lower.Expr
import Cnegative.Semantics.Keeps

namespace Cnegative

namespace Semantics

open Library.Runs
open Lower (Context ConstUse lowerExpr lowerFirst arrayLiteralResult elementHint wrapArrayAsSlice)

variable {ω : Type}

/-! `[value; N]`, which the lowering turns into N copies of the element expression. -/

def KeepsLog (before after : State ω) : Prop := before.events <:+ after.events

/-- A later state of a run: where nothing was logged, there are fresh cells at most. -/
def Continues (before after : State ω) : Prop :=
  ∃ logged, after.events = logged ++ before.events ∧
    (logged = [] → (∃ fresh, after.cells = before.cells ++ fresh) ∧
      after.zones = before.zones ∧ after.world = before.world)

instance : Growing (@KeepsLog ω) where
  refl _ := List.suffix_refl _
  trans _ _ _ := List.IsSuffix.trans
  allocate _ _ _ := List.suffix_refl _
  log _ event := List.suffix_cons event _
  kill _ _ := List.suffix_refl _
  store hstored := by
    obtain ⟨cell, changed, -, -, -, rfl⟩ := store?_eq_some hstored
    exact List.suffix_cons _ _
  enterZone _ := List.suffix_cons _ _
  releaseZone _ _ := List.suffix_cons _ _

instance : Allocating (@Continues ω) where
  refl _ := ⟨[], rfl, fun _ => ⟨⟨[], (List.append_nil _).symm⟩, rfl, rfl⟩⟩
  trans := by
    rintro first second third ⟨early, hearly, hfirst⟩ ⟨late, hlate, hsecond⟩
    refine ⟨late ++ early, by rw [hlate, hearly, List.append_assoc], fun hempty => ?_⟩
    obtain ⟨rfl, rfl⟩ := List.append_eq_nil_iff.mp hempty
    obtain ⟨⟨fresh, hcells⟩, hzones, hworld⟩ := hfirst rfl
    obtain ⟨⟨more, hmore⟩, hzones', hworld'⟩ := hsecond rfl
    exact ⟨⟨fresh ++ more, by rw [hmore, hcells, List.append_assoc]⟩, hzones'.trans hzones,
      hworld'.trans hworld⟩
  allocate state storage value := ⟨[], rfl, fun _ => ⟨⟨_, rfl⟩, rfl, rfl⟩⟩

theorem Continues.of_logged {before after : State ω} {event : Event}
    (hlogged : KeepsLog (before.log event) after) : Continues before after := by
  obtain ⟨behind, hbehind⟩ := hlogged
  refine ⟨behind ++ [event], ?_, fun hempty => by simp at hempty⟩
  rw [← hbehind, State.log, List.append_assoc]
  rfl

instance : Std.Antisymm (@Continues ω) where
  antisymm := by
    rintro ⟨cells, zones, world, events⟩ ⟨cells', zones', world', events'⟩
      ⟨early, hearly, hfirst⟩ ⟨late, hlate, hsecond⟩
    dsimp only at hearly hlate hfirst hsecond
    subst hearly
    obtain ⟨rfl, rfl⟩ : late = [] ∧ early = [] := by
      have hlength := congrArg List.length hlate
      simp only [List.length_append] at hlength
      exact ⟨List.length_eq_zero_iff.mp (by omega), List.length_eq_zero_iff.mp (by omega)⟩
    obtain ⟨⟨fresh, rfl⟩, rfl, rfl⟩ := hfirst rfl
    obtain ⟨⟨more, hmore⟩, -, -⟩ := hsecond rfl
    have hlength := congrArg List.length hmore
    simp only [List.length_append] at hlength
    obtain rfl : fresh = [] := List.length_eq_zero_iff.mp (by omega)
    rw [List.append_nil]
    rfl

/-- A call is logged before anything else happens. -/
theorem calls_continue {callee : Callee ω} (hcallee : callee.Keeps KeepsLog) :
    callee.CallsKeep Continues := by
  intro target moduleName functionName arguments state value after hrun
  unfold evalCall at hrun
  split at hrun
  · split at hrun
    · rename_i zone
      obtain ⟨released, middle, hrelease, hrest⟩ := bind_eq_ok.mp hrun
      cases hrest
      unfold Eval.releaseZone at hrelease
      split at hrelease
      · obtain ⟨current, same, hget, hmodify⟩ := bind_eq_ok.mp hrelease
        cases hget
        split at hmodify
        · cases hmodify
          exact ⟨[_], rfl, fun hempty => by cases hempty⟩
        · cases hmodify
      · cases hrelease
        exact Std.Refl.refl _
      · cases hrelease
    · cases hrun
  · obtain ⟨logged, middle, hlog, hcall⟩ := bind_eq_ok.mp hrun
    cases hlog
    exact Continues.of_logged (hcallee _ _ _ _ _ _ _ hcall)

/-! The elements of a literal. -/

section Literal

variable (structs : StructTable) (callee : Callee ω) (env : Env)

theorem denoteItems_replicate (item : IrExpr) (count : Nat) :
    denoteItems structs callee env (List.replicate count item) =
      repeated (denote structs callee env item).value count := by
  induction count with
  | zero => rfl
  | succ count ih => rw [List.replicate_succ, denoteItems, ih, repeated]

def repeatValue (item : IrExpr) (count : Nat) : Eval ω Value := do
  return .aggregate (← copied (denote structs callee env item).value count)

/-- The value of a literal whose elements are computed by `array`: where a slice is asked for,
a slice of a copy. -/
def literalValue (array : Eval ω Value) : IrExpr → Eval ω Value
  | .sliceFromArray _ base => do
      let place ← (Meaning.rvalue array).place
      let size ← Eval.ofOption base.type.arraySize?
      return .slice (some (place.child 0)) (BitVec.ofNat 64 size)
  | _ => array

end Literal

variable {structs : StructTable} {callee : Callee ω} {env : Env}

theorem aggregate_eq_iff {first second : Eval ω (List Value)} {state : State ω} :
    (do return Value.aggregate (← first) : Eval ω Value) state =
      (do return Value.aggregate (← second) : Eval ω Value) state ↔
        first state = second state := by
  refine bind_eq_bind_iff (fun values state => ⟨_, _, rfl⟩) fun hsame => ?_
  cases hsame
  exact ⟨rfl, rfl⟩

/-- An array node of copies of one element. -/
theorem denote_replicate_iff (hcallee : callee.Keeps KeepsLog) (type : TypeRef) (item : IrExpr)
    (count : Nat) (state : State ω) :
    (denote structs callee env (.arrayLiteral type (List.replicate (count + 1) item))).value state =
        repeatValue structs callee env item (count + 1) state ↔
      count = 0 ∨ Settles (denote structs callee env item).value state := by
  have harray : (denote structs callee env
      (.arrayLiteral type (List.replicate (count + 1) item))).value =
        (do return .aggregate (← repeated (denote structs callee env item).value (count + 1))) := by
    rw [denote, denoteItems_replicate]
    rfl
  rw [harray, repeatValue, aggregate_eq_iff]
  cases count with
  | zero => exact iff_of_true rfl (Or.inl rfl)
  | succ count =>
      rw [repeated_eq_copied_iff (keeps_denote (calls_continue hcallee) item).value]
      exact (or_iff_right (Nat.succ_ne_zero count)).symm

/-- A slice of a copy tells the arrays apart. -/
theorem literalValue_eq_iff {first second : Eval ω Value} {sliceType arrayType : TypeRef}
    {items : List IrExpr} {size : Nat} (hsize : arrayType.arraySize? = some size)
    {state : State ω} :
    literalValue first (.sliceFromArray sliceType (.arrayLiteral arrayType items)) state =
        literalValue second (.sliceFromArray sliceType (.arrayLiteral arrayType items)) state ↔
      first state = second state := by
  have hsame : ∀ array : Eval ω Value,
      literalValue array (.sliceFromArray sliceType (.arrayLiteral arrayType items)) =
        array >>= fun value => do
          let place ← Eval.allocate .stack value
          return .slice (some (place.child 0)) (BitVec.ofNat 64 size) := by
    intro array
    simp only [literalValue, Meaning.rvalue, IrExpr.type, hsize, Eval.ofOption, bind_assoc,
      pure_bind]
  rw [hsame, hsame]
  refine bind_eq_bind_iff (fun value state => ⟨_, _, rfl⟩)
    fun {value value' state state'} hends => ?_
  obtain ⟨-, hstates⟩ := EStateM.Result.ok.inj hends
  obtain ⟨cells, zones, world, events⟩ := state
  obtain ⟨cells', zones', world', events'⟩ := state'
  obtain ⟨hcells, rfl, rfl, rfl⟩ := State.mk.inj hstates
  obtain ⟨rfl, hcell⟩ := List.append_inj' hcells rfl
  obtain ⟨-, -, rfl⟩ := Cell.mk.inj (List.singleton_inj.mp hcell)
  exact ⟨rfl, rfl⟩

theorem arrayLiteralResult_cases (items : List IrExpr) (expected : Option TypeRef) :
    (∃ type, arrayLiteralResult items expected = .arrayLiteral type items) ∨
      ∃ sliceType element, arrayLiteralResult items expected =
        .sliceFromArray sliceType (.arrayLiteral (.array element items.length) items) := by
  unfold arrayLiteralResult
  split
  · exact Or.inl ⟨_, rfl⟩
  · unfold wrapArrayAsSlice
    dsimp only
    split
    · split
      · exact Or.inr ⟨_, _, rfl⟩
      · exact Or.inl ⟨_, rfl⟩
    · exact Or.inl ⟨_, rfl⟩

/-- In every state, the literal is one evaluation of its element copied just when it has one
element, or another evaluation of the element gives the same value and changes nothing. -/
theorem repeat_literal_iff {program : IrProgram} {runtime : Callee ω}
    (hruntime : runtime.Keeps KeepsLog) (fuel : Nat) (env : Env) {ctx : Context}
    {constUse : ConstUse} {scope : Lower.Scope} {expected : Option TypeRef} {element : Expr}
    {count : Nat} {item lowered : IrExpr}
    (hitem : lowerExpr ctx constUse scope (elementHint expected) element = some item)
    (hlowered : lowerExpr ctx constUse scope expected
      (.arrayLiteral [element] (some (count + 1))) = some lowered) (state : State ω) :
    (denote program.structTable (runCall program runtime fuel) env lowered).value state =
        literalValue (repeatValue program.structTable (runCall program runtime fuel) env item
          (count + 1)) lowered state ↔
      count = 0 ∨
        Settles (denote program.structTable (runCall program runtime fuel) env item).value
          state := by
  have hcallee : (runCall program runtime fuel).Keeps KeepsLog := keeps_runCall hruntime fuel
  have hresult : lowered = arrayLiteralResult (List.replicate (count + 1) item) expected := by
    rw [lowerExpr, lowerFirst, hitem] at hlowered
    exact (Option.some.inj hlowered).symm
  obtain ⟨type, harray⟩ | ⟨sliceType, elementType, hslice⟩ :=
    arrayLiteralResult_cases (List.replicate (count + 1) item) expected
  · rw [hresult, harray]
    exact denote_replicate_iff hcallee type item count state
  · have hvalue : ∀ arrayType items,
        (denote program.structTable (runCall program runtime fuel) env
          (.sliceFromArray sliceType (.arrayLiteral arrayType items))).value =
        literalValue (denote program.structTable (runCall program runtime fuel) env
          (.arrayLiteral arrayType items)).value
            (.sliceFromArray sliceType (.arrayLiteral arrayType items)) := by
      intro arrayType items
      rw [denote, denote]
      rfl
    rw [hresult, hslice, hvalue]
    exact (literalValue_eq_iff rfl).trans (denote_replicate_iff hcallee _ item count state)

/-- `p` leads to a 7 on the heap. -/
def pointedState : State Unit :=
  ⟨[⟨.heap, true, .int 7⟩, ⟨.stack, true, .ptr (some ⟨0, []⟩)⟩], [], (),
    [.store ⟨0, []⟩ (.int 7)]⟩

def pointedItem : IrExpr :=
  .deref .int (.local (.ptr .int) "p")

/-- `[deref p; 3]` -/
theorem repeat_literal_of_deref :
    (denote (IrProgram.structTable ⟨[]⟩) (runCall ⟨[]⟩ (fun _ _ _ _ => pure .void : Callee Unit) 1)
      [⟨[("p", 1)], ()⟩] (.arrayLiteral (.array .int 3) (List.replicate 3 pointedItem))).value
        pointedState =
      literalValue (repeatValue (IrProgram.structTable ⟨[]⟩)
        (runCall ⟨[]⟩ (fun _ _ _ _ => pure .void : Callee Unit) 1) [⟨[("p", 1)], ()⟩] pointedItem 3)
        (.arrayLiteral (.array .int 3) (List.replicate 3 pointedItem)) pointedState := by
  have hrepeats := @repeat_literal_iff Unit ⟨[]⟩ (fun _ _ _ _ => pure .void)
    (fun _ _ _ _ => keeps_pure _) 1 [⟨[("p", 1)], ()⟩] ⟨mainProject [], 0⟩ (fun _ _ => none)
    [⟨[("p", ⟨.ptr .int, false⟩)], ""⟩] none (.deref (.name "p")) 2 pointedItem
    (.arrayLiteral (.array .int 3) (List.replicate 3 pointedItem)) rfl rfl pointedState
  refine hrepeats.mpr (.inr ?_)
  intro value after hrun
  cases hrun
  rfl

/-- `let a:ptr int[2] = [alloc int; 2]; if a[0] == a[1] { return 1; } return 0;` -/
def repeatedAllocBody : Block := [
  .letStmt "a" false (.array (.ptr .int) 2) (.arrayLiteral [.alloc .int] (some 2)),
  .ifStmt (.binary .equal (.index (.name "a") (.int 0)) (.index (.name "a") (.int 1)))
    [.returnStmt (some (.int 1))] none,
  .returnStmt (some (.int 0))]

/-- The two pointers of `[alloc int; 2]` differ. -/
theorem repeated_alloc_differs :
    Check.Accepted (mainProject repeatedAllocBody) ∧
      (Lower.lowerProject (mainProject repeatedAllocBody)).map (mainResult · 2) = some (some 0) ∧
      ¬ ∀ (item : IrExpr) (count : Nat) (state : State Unit),
        (denote [] (fun _ _ _ _ => pure .void) []
          (.arrayLiteral (.array item.type (count + 1)) (List.replicate (count + 1) item))).value
            state =
          repeatValue [] (fun _ _ _ _ => pure .void) [] item (count + 1) state := by
  refine ⟨by decide +kernel, by decide +kernel, fun hall => ?_⟩
  have hidle : Callee.Keeps KeepsLog (fun _ _ _ _ => pure .void : Callee Unit) :=
    fun _ _ _ _ => keeps_pure _
  have hrepeats := hall (.alloc (.ptr .int) .int) 1 ⟨[], [], (), []⟩
  obtain hone | hsettles := (denote_replicate_iff hidle _ _ 1 _).mp hrepeats
  · cases hone
  · have hsecond := hsettles _ _ rfl
    cases hsecond

end Semantics

end Cnegative
