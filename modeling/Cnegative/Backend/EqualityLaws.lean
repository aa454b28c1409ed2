import Cnegative.Backend.Equality

namespace Cnegative

/-! What tells values apart. -/

namespace Value

mutual

/-- The value without what no comparison sees: who owns a string, and what follows its zero. -/
def bare : Value → Value
  | .str _ bytes => .str none (cstring bytes)
  | .aggregate items => .aggregate (bareItems items)
  | value => value

def bareItems : List Value → List Value
  | [] => []
  | item :: items => item.bare :: bareItems items

end

mutual

/-- No string of the value is null. -/
def defined : Value → Bool
  | .undef => false
  | .aggregate items => itemsDefined items
  | _ => true

def itemsDefined : List Value → Bool
  | [] => true
  | item :: items => item.defined && itemsDefined items

end

theorem bareItems_eq_map (items : List Value) : bareItems items = items.map bare := by
  induction items with
  | nil => rfl
  | cons item items ih => rw [bareItems, List.map_cons, ih]

mutual

/-- Where a comparison has an answer, it is whether the bytes are the same. -/
theorem equal_iff_bare {left right : Value} {same : Bool} (hequal : equal left right = some same) :
    same = true ↔ left.bare = right.bare := by
  cases left <;> cases right <;>
    simp only [equal, Option.some.injEq, reduceCtorEq] at hequal
  case aggregate.aggregate items others =>
      rw [bare, bare, Value.aggregate.injEq]
      exact itemsEqual_iff_bare hequal
  all_goals
    subst hequal
    simp [bare]

theorem itemsEqual_iff_bare {left right : List Value} {same : Bool}
    (hequal : itemsEqual left right = some same) :
    same = true ↔ bareItems left = bareItems right := by
  cases left with
  | nil =>
      cases right with
      | nil =>
          cases hequal
          simp
      | cons other others => cases hequal
  | cons item items =>
      cases right with
      | nil => cases hequal
      | cons other others =>
          rw [itemsEqual] at hequal
          obtain ⟨first, hfirst, hrest⟩ := Option.bind_eq_some_iff.mp hequal
          obtain ⟨rest, hrestEqual, hsame⟩ := Option.bind_eq_some_iff.mp hrest
          obtain rfl := Option.some.inj hsame
          rw [Bool.and_eq_true, equal_iff_bare hfirst, itemsEqual_iff_bare hrestEqual, bareItems,
            bareItems, List.cons.injEq]

end

theorem bare_pair (first second : Value) :
    (Value.aggregate [first, second]).bare = .aggregate [first.bare, second.bare] := rfl

theorem pair_inj {first second first' second' : Value}
    (hsame : Value.aggregate [first, second] = .aggregate [first', second']) :
    first = first' ∧ second = second' := by
  cases hsame
  exact ⟨rfl, rfl⟩

theorem item_bare {items others : List Value} {index : Nat} {item other : Value}
    (hbare : (Value.aggregate items).bare = (Value.aggregate others).bare)
    (hitem : items[index]? = some item) (hother : others[index]? = some other) :
    item.bare = other.bare := by
  rw [bare, bare, Value.aggregate.injEq, bareItems_eq_map, bareItems_eq_map] at hbare
  have hmap := congrArg (·[index]?) hbare
  simp only [List.getElem?_map, hitem, hother, Option.map_some, Option.some.injEq] at hmap
  exact hmap

end Value

namespace Llvm

open Value
open Library (Line Code)

/-! The laws of equality: `err` equals `err` whatever it carries along. -/

inductive Same (structs : StructTable) : TypeRef → Value → Value → Prop where
  | int (value : BitVec 64) : Same structs .int (.int value) (.int value)
  | u8 (value : BitVec 8) : Same structs .u8 (.u8 value) (.u8 value)
  | bool (value : Bool) : Same structs .bool (.bool value) (.bool value)
  | str {owner owner' : Option Nat} {left right : List UInt8}
      (hbytes : cstring left = cstring right) :
      Same structs .str (.str owner left) (.str owner' right)
  | ptr (inner : TypeRef) (target : Option Place) :
      Same structs (.ptr inner) (.ptr target) (.ptr target)
  | null (target : Option Place) : Same structs .null (.ptr target) (.ptr target)
  | ok {inner : TypeRef} {left right : Value} (hpayload : Same structs inner left right) :
      Same structs (.result inner) (.aggregate [.bool true, left]) (.aggregate [.bool true, right])
  | err (inner : TypeRef) (left right : Value) :
      Same structs (.result inner) (.aggregate [.bool false, left])
        (.aggregate [.bool false, right])
  | slice (inner : TypeRef) (data : Option Place) (length : BitVec 64) :
      Same structs (.slice inner) (.aggregate [.ptr data, .int length])
        (.aggregate [.ptr data, .int length])
  | array {inner : TypeRef} {left right : List Value} (hlength : left.length = right.length)
      (hitems : ∀ (index : Nat) (item other : Value), left[index]? = some item →
        right[index]? = some other → Same structs inner item other) :
      Same structs (.array inner left.length) (.aggregate left) (.aggregate right)
  | named {moduleName name : Name} {decl : IrStruct} {left right : List Value}
      (hfind : structs.find moduleName name = some decl)
      (hleft : left.length = decl.fields.length) (hright : right.length = decl.fields.length)
      (hitems : ∀ (index : Nat) (field : StructField) (item other : Value),
        decl.fields[index]? = some field → left[index]? = some item →
        right[index]? = some other → Same structs field.type item other) :
      Same structs (.named moduleName name) (.aggregate left) (.aggregate right)

variable {structs : StructTable} {type : TypeRef} {left right : Value}

/-- Two values that nothing tells apart are the same. -/
theorem same_of_bare {nulls : Bool} (hleft : HasType structs false type left)
    (hright : HasType structs nulls type right) (hbare : left.bare = right.bare) :
    Same structs type left right := by
  generalize hproper : false = proper at hleft
  induction hleft generalizing right nulls with
  | int nulls value | u8 nulls value | bool nulls value | ptr nulls inner target
  | null nulls target =>
      cases hright
      cases hbare
      constructor
  | str nulls owner bytes =>
      cases hright with
      | str nulls' owner' bytes' =>
          rw [bare, bare] at hbare
          exact .str (Value.str.inj hbare).2
      | nullStr => cases hbare
  | nullStr => cases hproper
  | ok hpayload ih =>
      cases hright with
      | ok hpayload' =>
          rw [bare_pair, bare_pair] at hbare
          exact .ok (ih hpayload' (pair_inj hbare).2 hproper)
      | err hpayload' =>
          rw [bare_pair, bare_pair] at hbare
          cases (pair_inj hbare).1
  | err hpayload =>
      cases hright with
      | ok hpayload' =>
          rw [bare_pair, bare_pair] at hbare
          cases (pair_inj hbare).1
      | err hpayload' => exact .err ..
  | slice nulls inner data length =>
      cases hright with
      | slice nulls' _ data' length' =>
          rw [bare_pair, bare_pair] at hbare
          obtain ⟨hdata, hlength⟩ := pair_inj hbare
          obtain rfl := Value.ptr.inj hdata
          obtain rfl := Value.int.inj hlength
          constructor
  | @array nulls inner items hitems ih =>
      generalize hsize : items.length = size at hright
      cases hright with
      | @array nulls' _ others hothers =>
          rw [← hsize]
          refine .array hsize fun index item other hitem hother => ?_
          exact ih index item hitem (hothers index other hother)
            (item_bare hbare hitem hother) hproper
  | @named nulls moduleName name decl items hfind hlength hitems ih =>
      cases hright with
      | @named nulls' _ _ decl' others hfind' hlength' hothers =>
          obtain rfl : decl = decl' := Option.some.inj (hfind.symm.trans hfind')
          refine .named hfind hlength hlength' fun index field item other hfield hitem hother => ?_
          exact ih index field item hfield hitem (hothers index field other hfield hother)
            (item_bare hbare hitem hother) hproper

theorem Same.refl {nulls : Bool} (hleft : HasType structs nulls type left)
    (hproper : nulls = false) : Same structs type left left :=
  same_of_bare (hproper ▸ hleft) hleft rfl

theorem Same.symm (hsame : Same structs type left right) : Same structs type right left := by
  induction hsame with
  | int value | u8 value | bool value | ptr inner target | null target
  | slice inner data length => constructor
  | str hbytes => exact .str hbytes.symm
  | ok hpayload ih => exact .ok ih
  | err inner left right => exact .err ..
  | array hlength hitems ih =>
      rw [hlength]
      exact .array hlength.symm fun index item other hitem hother =>
        ih index other item hother hitem
  | named hfind hleft hright hitems ih =>
      exact .named hfind hright hleft fun index field item other hfield hitem hother =>
        ih index field other item hfield hother hitem

theorem Same.trans {third : Value} (hfirst : Same structs type left right)
    (hsecond : Same structs type right third) : Same structs type left third := by
  induction hfirst generalizing third with
  | int value | u8 value | bool value | ptr inner target | null target
  | slice inner data length => exact hsecond
  | str hbytes =>
      cases hsecond with
      | str hbytes' => exact .str (hbytes.trans hbytes')
  | ok hpayload ih =>
      cases hsecond with
      | ok hpayload' => exact .ok (ih hpayload')
  | err inner left right =>
      cases hsecond with
      | err => exact .err ..
  | @array inner items others hlength hitems ih =>
      generalize hsize : items.length = size at hsecond
      cases hsecond with
      | @array _ _ last hlength' hothers =>
          rw [← hsize]
          refine .array (hlength.trans hlength') fun index item other hitem hother => ?_
          have hindex := (List.getElem?_eq_some_iff.mp hitem).1
          have hmiddle := List.getElem?_eq_getElem (l := others) (i := index) (by omega)
          exact ih index item _ hitem hmiddle (hothers index _ other hmiddle hother)
  | @named moduleName name decl items others hfind hleft hright hitems ih =>
      cases hsecond with
      | @named _ _ decl' _ last hfind' hleft' hright' hothers =>
          obtain rfl : decl = decl' := Option.some.inj (hfind.symm.trans hfind')
          refine .named hfind hleft hright' fun index field item other hfield hitem hother => ?_
          have hindex := (List.getElem?_eq_some_iff.mp hitem).1
          have hmiddle := List.getElem?_eq_getElem (l := others) (i := index) (by omega)
          exact ih index field item _ hfield hitem hmiddle
            (hothers index field _ other hfield hmiddle hother)

theorem itemsEqual_isSome_iff {items others : List Value} (hlength : items.length = others.length)
    (heach : ∀ (index : Nat) (item other : Value), items[index]? = some item →
      others[index]? = some other →
      ((equal item other).isSome = true ↔ item.defined = true ∧ other.defined = true)) :
    (itemsEqual items others).isSome = true ↔
      itemsDefined items = true ∧ itemsDefined others = true := by
  induction items generalizing others with
  | nil =>
      cases others with
      | nil => simp [itemsEqual, itemsDefined]
      | cons other others => cases hlength
  | cons item items ih =>
      cases others with
      | nil => cases hlength
      | cons other others =>
          have hfirst := heach 0 item other rfl rfl
          have hrest := ih (Nat.succ.inj hlength) fun index => heach (index + 1)
          rw [itemsEqual, itemsDefined, itemsDefined, Bool.and_eq_true, Bool.and_eq_true]
          cases hitem : equal item other with
          | none =>
              rw [hitem] at hfirst
              simp only [Option.isSome_none, Bool.false_eq_true, false_iff, not_and] at hfirst
              simp only [Option.bind_eq_bind, Option.bind_none, Option.isSome_none,
                Bool.false_eq_true, false_iff]
              tauto
          | some same =>
              rw [hitem, Option.isSome_some] at hfirst
              have hboth := hfirst.mp rfl
              cases hitems : itemsEqual items others with
              | none =>
                  rw [hitems] at hrest
                  simp only [Option.isSome_none, Bool.false_eq_true, false_iff] at hrest
                  simp only [Option.bind_eq_bind, Option.bind_none, Option.bind_some,
                    Option.isSome_none, Bool.false_eq_true, false_iff]
                  tauto
              | some rest =>
                  rw [hitems, Option.isSome_some] at hrest
                  have hall := hrest.mp rfl
                  simp [hboth, hall]

/-- A comparison has an answer just where it meets no null string. -/
theorem equal_isSome_iff {nulls nulls' : Bool} (hleft : HasType structs nulls type left)
    (hright : HasType structs nulls' type right) :
    (equal left right).isSome = true ↔ left.defined = true ∧ right.defined = true := by
  induction hleft generalizing right nulls' with
  | int nulls value | u8 nulls value | bool nulls value | ptr nulls inner target
  | null nulls target =>
      cases hright
      simp [equal, defined]
  | str nulls owner bytes => cases hright <;> simp [equal, defined]
  | nullStr => cases hright <;> simp [equal, defined]
  | ok hpayload ih | err hpayload ih =>
      cases hright with
      | ok hpayload' | err hpayload' =>
          rw [equal_pair]
          have hpayloads := ih hpayload'
          simp only [equal, Option.bind_some, Option.isSome_map, hpayloads, defined, itemsDefined,
            Bool.and_true, Bool.true_and]
  | slice nulls inner data length =>
      cases hright
      rw [equal_pair]
      simp [equal, defined, itemsDefined]
  | @array nulls inner items hitems ih =>
      generalize hsize : items.length = size at hright
      cases hright with
      | @array nulls' _ others hothers =>
          rw [equal, defined, defined]
          exact itemsEqual_isSome_iff hsize fun index item other hitem hother =>
            ih index item hitem (hothers index other hother)
  | @named nulls moduleName name decl items hfind hlength hitems ih =>
      cases hright with
      | @named nulls' _ _ decl' others hfind' hlength' hothers =>
          obtain rfl : decl = decl' := Option.some.inj (hfind.symm.trans hfind')
          rw [equal, defined, defined]
          refine itemsEqual_isSome_iff (hlength.trans hlength'.symm)
            fun index item other hitem hother => ?_
          have hindex := (List.getElem?_eq_some_iff.mp hitem).1
          have hfield := List.getElem?_eq_getElem (l := decl.fields) (i := index) (by omega)
          exact ih index _ item hfield hitem (hothers index _ other hfield hother)

/-- The comparison ends, and its result is what the laws say. -/
def FollowsLaws (structs : StructTable) (type : TypeRef) (left right : Value) (regs : Regs)
    (code : Code Inst) (operand : LlvmValue) : Prop :=
  ∃ last result, regs.run code = some last ∧ operand.eval last = some (.bool result) ∧
    (result = true ↔ Same structs type left right)

/-- The emitted comparison of two values follows the laws just where it meets no null string,
also in what an `err` carries along, and equal values carry the same along. -/
theorem value_equality_iff (hleft : HasType structs false type left)
    (hright : HasType structs false type right) {state after : EmitState}
    {first second operand : LlvmValue} {code : Code Inst}
    (hemit : emitValueEquality structs first second type state = some (operand, code, after))
    {regs : Regs} (hfirst : Stands regs state.nextTemp first left)
    (hsecond : Stands regs state.nextTemp second right) :
    FollowsLaws structs type left right regs code operand ↔
      left.defined = true ∧ right.defined = true ∧
        (Same structs type left right → left.bare = right.bare) := by
  have hanswers := emitEquality_compares hleft hright (structDepth structs) hfirst hsecond hemit
    (le_refl _) regs (.refl _ _)
  have hsome := equal_isSome_iff hleft hright
  cases hequal : equal left right with
  | none =>
      rw [hequal] at hanswers hsome
      have hundefined : ¬ (left.defined = true ∧ right.defined = true) := fun hdefined =>
        Bool.noConfusion (hsome.mpr hdefined)
      constructor
      · rintro ⟨last, result, hrun, -⟩
        have hstuck : regs.run code = none := hanswers
        rw [hstuck] at hrun
        cases hrun
      · rintro ⟨hdefined, hdefined', -⟩
        exact (hundefined ⟨hdefined, hdefined'⟩).elim
  | some same =>
      rw [hequal] at hanswers hsome
      obtain ⟨-, last, hrun, -, hresult⟩ := hanswers
      have hdefined := hsome.mp rfl
      have hbare := equal_iff_bare hequal
      constructor
      · rintro ⟨last', result, hrun', heval, hlaws⟩
        obtain rfl : last = last' := Option.some.inj (hrun.symm.trans hrun')
        obtain rfl := Value.bool.inj (Option.some.inj (hresult.eval.symm.trans heval))
        exact ⟨hdefined.1, hdefined.2, fun hsame => hbare.mp (hlaws.mpr hsame)⟩
      · rintro ⟨-, -, hcarry⟩
        refine ⟨last, same, hrun, hresult.eval, hbare.trans ⟨same_of_bare hleft hright, hcarry⟩⟩

/-- Two values in the first registers. -/
def twoRegs (left right : Value) : Regs
  | 0 => some left
  | 1 => some right
  | _ => none

theorem stands_twoRegs (left right : Value) (type : TypeRef) :
    Stands (twoRegs left right) 2 (.register type 0) left ∧
      Stands (twoRegs left right) 2 (.register type 1) right := by
  constructor
  · refine ⟨rfl, fun id hdata => ?_⟩
    cases hdata
    decide
  · refine ⟨rfl, fun id hdata => ?_⟩
    cases hdata
    decide

/-- The same text twice, with another byte behind the zero of one. -/
theorem value_equality_texts :
    ∃ operand code after, emitValueEquality [] (.register (.result .str) 0)
        (.register (.result .str) 1) (.result .str) ⟨2, 0, false⟩ = some (operand, code, after) ∧
      (FollowsLaws [] (.result .str) (Value.ok (.str none [97])) (Value.ok (.str (some 3) [97, 0, 98]))
          (twoRegs (Value.ok (.str none [97])) (Value.ok (.str (some 3) [97, 0, 98]))) code operand ↔
        (Value.ok (.str none [97])).defined = true ∧
          (Value.ok (.str (some 3) [97, 0, 98])).defined = true ∧
          (Same [] (.result .str) (Value.ok (.str none [97])) (Value.ok (.str (some 3) [97, 0, 98])) →
            (Value.ok (.str none [97])).bare = (Value.ok (.str (some 3) [97, 0, 98])).bare)) :=
  ⟨_, _, _, rfl, value_equality_iff (.ok (.str ..)) (.ok (.str ..)) rfl (stands_twoRegs ..).1
    (stands_twoRegs ..).2⟩

/-- `err == err` for `result str` hands the null payloads to `strcmp`. -/
theorem err_str_meets_strcmp :
    HasType [] false (.result .str) (Value.err [] .str) ∧
      Same [] (.result .str) (Value.err [] .str) (Value.err [] .str) ∧
      ∃ operand code after, emitValueEquality [] (.register (.result .str) 0)
          (.register (.result .str) 1) (.result .str) ⟨2, 0, false⟩ = some (operand, code, after) ∧
        (twoRegs (Value.err [] .str) (Value.err [] .str)).run code = none :=
  ⟨.err .nullStr, .err .., _, _, _, rfl, rfl⟩

end Llvm

end Cnegative
