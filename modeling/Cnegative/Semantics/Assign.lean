import Cnegative.Semantics.Ends
import Cnegative.Semantics.Visits

namespace Cnegative

namespace Semantics

open Library (Chain)
open Library.Runs

variable {ω α : Type}

/-! Where an assignment stores. -/

def Env.Owns (env : Env) (place : Place) : Prop :=
  ∃ name found, Chain.find? env name = some found ∧ place.cell = found.2

/-- A pointer into the cell of the place, or a slice of it. -/
def Value.PointsTo (value : Value) (place : Place) : Prop :=
  ∃ target : Place, target.cell = place.cell ∧
    (value = .ptr (some target) ∨ ∃ length, value = .slice (some target) length)

theorem pointsTo_ptr {target place : Place} (hpoints : Value.PointsTo (.ptr (some target)) place) :
    target.cell = place.cell := by
  obtain ⟨found, hcell, hptr | ⟨length, hslice⟩⟩ := hpoints
  · cases hptr
    exact hcell
  · cases hslice

theorem pointsTo_slice {data : Option Place} {length : BitVec 64} {place : Place}
    (hpoints : Value.PointsTo (.slice data length) place) :
    ∃ target, data = some target ∧ target.cell = place.cell := by
  obtain ⟨found, hcell, hptr | ⟨other, hslice⟩⟩ := hpoints
  · cases hptr
  · cases hslice
    exact ⟨found, rfl, hcell⟩

def Pure (run : Eval ω α) : Prop :=
  ∀ state a after, run state = .ok a after → after = state

theorem asPlace_eq_ok {value : Value} {state after : State ω} {place : Place}
    (hrun : value.asPlace state = .ok place after) :
    value = .ptr (some place) ∧ after = state := by
  unfold Value.asPlace at hrun
  split at hrun
  · obtain ⟨rfl, rfl⟩ := pure_eq_ok.mp hrun
    exact ⟨rfl, rfl⟩
  · cases hrun

theorem asInt_eq_ok {value : Value} {state after : State ω} {number : BitVec 64}
    (hrun : value.asInt state = .ok number after) : after = state := by
  cases value with
  | int value => exact (pure_eq_ok.mp hrun).2.symm
  | _ => cases hrun

theorem sliceParts_eq_ok {value : Value} {state after : State ω}
    {parts : Option Place × BitVec 64} (hrun : sliceParts value state = .ok parts after) :
    value = .slice parts.1 parts.2 ∧ after = state := by
  unfold sliceParts at hrun
  split at hrun
  · obtain ⟨rfl, rfl⟩ := pure_eq_ok.mp hrun
    exact ⟨rfl, rfl⟩
  · cases hrun

theorem elementPlace_eq_ok {data : Option Place} {index : BitVec 64} {state after : State ω}
    {place : Place} (hrun : elementPlace data index state = .ok place after) :
    (∃ target, data = some target ∧ target.cell = place.cell) ∧ after = state := by
  obtain ⟨hplace, rfl⟩ := ofOption_eq_ok.mp hrun
  obtain ⟨target, rfl, hoffset⟩ := Option.bind_eq_some_iff.mp hplace
  refine ⟨⟨target, rfl, ?_⟩, rfl⟩
  unfold Place.offset at hoffset
  split at hoffset
  · rw [← Option.some.inj hoffset]
  · split at hoffset
    · rw [← Option.some.inj hoffset]
    · cases hoffset

section

variable {structs : StructTable} {callee : Callee ω} {env : Env}

theorem lookupLocal_eq_ok {name : Name} {state after : State ω} {place : Place}
    (hrun : lookupLocal env name state = .ok place after) :
    ∃ found, Chain.find? env name = some found ∧ place = ⟨found.2, []⟩ ∧ after = state := by
  obtain ⟨found, middle, hlookup, hplace⟩ := bind_eq_ok.mp hrun
  obtain ⟨hfound, rfl⟩ := ofOption_eq_ok.mp hlookup
  obtain ⟨rfl, rfl⟩ := pure_eq_ok.mp hplace
  exact ⟨found, hfound, rfl, rfl⟩

/-! The steps of a path. -/

theorem place_field {type : TypeRef} {base : IrExpr} {fieldName : Name}
    (hptr : base.type.isPtr = false) {state after : State ω} {place : Place}
    (hrun : (denote structs callee env (.field type base fieldName)).place state =
      .ok place after) :
    ∃ aggregate field, (denote structs callee env base).place state = .ok aggregate after ∧
      resolveField structs base.type fieldName = some field ∧ place = aggregate.child field.2 := by
  rw [denote, hptr] at hrun
  obtain ⟨aggregate, middle, haggregate, hrun⟩ := bind_eq_ok.mp hrun
  obtain ⟨field, behind, hfield, hrun⟩ := bind_eq_ok.mp hrun
  obtain ⟨rfl, rfl⟩ := pure_eq_ok.mp hrun
  obtain ⟨hresolved, rfl⟩ := ofOption_eq_ok.mp hfield
  exact ⟨aggregate, field, haggregate, hresolved, rfl⟩

theorem place_pointerField {type : TypeRef} {base : IrExpr} {fieldName : Name}
    (hptr : base.type.isPtr = true) {state after : State ω} {place : Place}
    (hrun : (denote structs callee env (.field type base fieldName)).place state =
      .ok place after) :
    (denote structs callee env base).value state = .ok (.ptr (some place)) after := by
  rw [denote, hptr] at hrun
  obtain ⟨value, middle, hvalue, hplace⟩ := bind_eq_ok.mp hrun
  obtain ⟨rfl, rfl⟩ := asPlace_eq_ok hplace
  exact hvalue

theorem place_index {type : TypeRef} {base index : IrExpr} (hslice : base.type.isSlice = false)
    {state after : State ω} {place : Place}
    (hrun : (denote structs callee env (.index type base index)).place state = .ok place after) :
    ∃ value middle position array,
      (denote structs callee env index).value state = .ok value middle ∧
      value.asInt middle = .ok position middle ∧
      (denote structs callee env base).place middle = .ok array after ∧
      place = array.child position.toInt := by
  rw [denote, hslice] at hrun
  obtain ⟨value, middle, hvalue, hrun⟩ := bind_eq_ok.mp hrun
  obtain ⟨position, behind, hposition, hrun⟩ := bind_eq_ok.mp hrun
  obtain ⟨array, last, harray, hrun⟩ := bind_eq_ok.mp hrun
  obtain ⟨rfl, rfl⟩ := pure_eq_ok.mp hrun
  obtain rfl := asInt_eq_ok hposition
  exact ⟨value, _, position, array, hvalue, hposition, harray, rfl⟩

theorem place_sliceIndex {type : TypeRef} {base index : IrExpr} (hslice : base.type.isSlice = true)
    {state after : State ω} {place : Place}
    (hrun : (denote structs callee env (.index type base index)).place state = .ok place after) :
    ∃ value middle position target length,
      (denote structs callee env index).value state = .ok value middle ∧
      value.asInt middle = .ok position middle ∧
      (denote structs callee env base).value middle = .ok (.slice (some target) length) after ∧
      target.cell = place.cell := by
  rw [denote, hslice] at hrun
  obtain ⟨value, middle, hvalue, hafterIndex⟩ := bind_eq_ok.mp hrun
  obtain ⟨position, behind, hposition, hafterPosition⟩ := bind_eq_ok.mp hafterIndex
  obtain ⟨slice, last, hbase, hafterBase⟩ := bind_eq_ok.mp hafterPosition
  obtain ⟨parts, final, hparts, helement⟩ := bind_eq_ok.mp hafterBase
  obtain rfl := asInt_eq_ok hposition
  obtain ⟨hshape, rfl⟩ := sliceParts_eq_ok hparts
  obtain ⟨⟨target, hdata, hcell⟩, rfl⟩ := elementPlace_eq_ok helement
  rw [hshape, hdata] at hbase
  exact ⟨value, _, position, target, parts.2, hvalue, hposition, hbase, hcell⟩

theorem place_deref {type : TypeRef} {target : IrExpr} {state after : State ω} {place : Place}
    (hrun : (denote structs callee env (.deref type target)).place state = .ok place after) :
    (denote structs callee env target).value state = .ok (.ptr (some place)) after := by
  rw [denote] at hrun
  obtain ⟨value, middle, hvalue, hplace⟩ := bind_eq_ok.mp hrun
  obtain ⟨rfl, rfl⟩ := asPlace_eq_ok hplace
  exact hvalue

/-! What pointers and slices made on the spot point to. -/

theorem value_sliceFromArray {type : TypeRef} {base : IrExpr} {state after : State ω}
    {value : Value}
    (hrun : (denote structs callee env (.sliceFromArray type base)).value state = .ok value after) :
    ∃ array size, (denote structs callee env base).place state = .ok array after ∧
      value = .slice (some (array.child 0)) size := by
  rw [denote] at hrun
  obtain ⟨array, middle, harray, hrest⟩ := bind_eq_ok.mp hrun
  obtain ⟨size, behind, hsize, hend⟩ := bind_eq_ok.mp hrest
  obtain ⟨-, rfl⟩ := ofOption_eq_ok.mp hsize
  obtain ⟨rfl, rfl⟩ := pure_eq_ok.mp hend
  exact ⟨array, _, harray, rfl⟩

theorem value_addr {type : TypeRef} {target : IrExpr} {state after : State ω} {value : Value}
    (hrun : (denote structs callee env (.addr type target)).value state = .ok value after) :
    ∃ place, (denote structs callee env target).place state = .ok place after ∧
      value = .ptr (some place) := by
  rw [denote] at hrun
  change (if target.isPlace = true then _ else Eval.undefined : Eval ω Value) state = _ at hrun
  split at hrun
  · obtain ⟨place, middle, hplace, hend⟩ := bind_eq_ok.mp hrun
    obtain ⟨rfl, rfl⟩ := pure_eq_ok.mp hend
    exact ⟨place, hplace, rfl⟩
  · cases hrun

theorem advance_eq_ok {data found : Option Place} {count : BitVec 64} {state after : State ω}
    (hrun : advance data count state = .ok found after) {target : Place}
    (hfound : found = some target) :
    (∃ place, data = some place ∧ place.cell = target.cell) ∧ after = state := by
  cases data with
  | none =>
      rw [advance] at hrun
      split at hrun
      · obtain ⟨rfl, -⟩ := pure_eq_ok.mp hrun
        cases hfound
      · cases hrun
  | some place =>
      obtain ⟨moved, middle, hmoved, hend⟩ := bind_eq_ok.mp hrun
      obtain ⟨hoffset, rfl⟩ := ofOption_eq_ok.mp hmoved
      obtain ⟨rfl, rfl⟩ := pure_eq_ok.mp hend
      obtain rfl := Option.some.inj hfound
      have helement : elementPlace (some place) count state = .ok moved state :=
        ofOption_eq_ok.mpr ⟨hoffset, rfl⟩
      obtain ⟨place', hsame, hcell⟩ := (elementPlace_eq_ok helement).1
      obtain rfl := Option.some.inj hsame
      exact ⟨⟨_, rfl, hcell⟩, rfl⟩

/-- On the way from one state to the other the run finds the cell as that of the expression. -/
def Finds (structs : StructTable) (callee : Callee ω) (env : Env) (base : IrExpr)
    (state after : State ω) (cell : Nat) : Prop :=
  ∃ start stop inner, State.Retires state start ∧
    (denote structs callee env base).place start = .ok inner stop ∧ State.Retires stop after ∧
    inner.cell = cell

theorem Finds.widen {base : IrExpr} {before state after behind : State ω} {cell : Nat}
    (hfinds : Finds structs callee env base state after cell) (hbefore : before.Retires state)
    (hbehind : after.Retires behind) : Finds structs callee env base before behind cell := by
  obtain ⟨start, stop, inner, hstart, hplace, hstop, hcell⟩ := hfinds
  exact ⟨start, stop, inner, IsTrans.trans _ _ _ hbefore hstart, hplace,
    IsTrans.trans _ _ _ hstop hbehind, hcell⟩

theorem retires_bound (hcallee : callee.Keeps State.Retires) (bound : Option IrExpr) :
    Keeps State.Retires (denoteBound structs callee env bound) := by
  cases bound with
  | none =>
      rw [denoteBound]
      exact keeps_pure _
  | some bound =>
      rw [denoteBound]
      refine (retires_value hcallee bound).bind fun value => Keeps.bind ?_ fun _ => keeps_pure _
      intro state number after hrun
      obtain rfl := asInt_eq_ok hrun
      exact Std.Refl.refl _

mutual

theorem place_of_owner (hcallee : callee.Keeps State.Retires) (target base : IrExpr)
    (howner : target.owner = some base) {state after : State ω} {place : Place}
    (hrun : (denote structs callee env target).place state = .ok place after) :
    Finds structs callee env base state after place.cell := by
  cases target with
  | field _ inner fieldName =>
      rw [IrExpr.owner] at howner
      split at howner
      · next hptr =>
          exact pointer_of_pointee hcallee inner base howner (place_pointerField hptr hrun)
            ⟨place, rfl, .inl rfl⟩
      · next hptr =>
          obtain ⟨aggregate, field, hinner, -, rfl⟩ :=
            place_field (Bool.eq_false_iff.mpr hptr) hrun
          have hfinds := place_of_owner hcallee inner base howner hinner
          exact hfinds
  | index _ inner index =>
      rw [IrExpr.owner] at howner
      split at howner
      · next hslice =>
          obtain ⟨value, middle, position, target, length, hindex, -, hvalue, hcell⟩ :=
            place_sliceIndex hslice hrun
          have hfinds := pointer_of_pointee hcallee inner base howner hvalue
            ⟨target, hcell, .inr ⟨length, rfl⟩⟩
          exact hfinds.widen (retires_value hcallee index _ _ _ hindex) (Std.Refl.refl _)
      · next hslice =>
          obtain ⟨value, middle, position, array, hindex, -, hinner, rfl⟩ :=
            place_index (Bool.eq_false_iff.mpr hslice) hrun
          have hfinds := place_of_owner hcallee inner base howner hinner
          exact hfinds.widen (retires_value hcallee index _ _ _ hindex) (Std.Refl.refl _)
  | deref _ pointer =>
      rw [IrExpr.owner] at howner
      exact pointer_of_pointee hcallee pointer base howner (place_deref hrun)
        ⟨place, rfl, .inl rfl⟩
  | _ =>
      simp only [IrExpr.owner, Option.some.injEq] at howner
      subst howner
      exact ⟨state, after, place, Std.Refl.refl _, hrun, Std.Refl.refl _, rfl⟩

theorem pointer_of_pointee (hcallee : callee.Keeps State.Retires) (pointer base : IrExpr)
    (hpointee : pointer.pointee = some base) {state after : State ω} {value : Value} {place : Place}
    (hrun : (denote structs callee env pointer).value state = .ok value after)
    (hpoints : Value.PointsTo value place) :
    Finds structs callee env base state after place.cell := by
  cases pointer with
  | sliceFromArray _ inner =>
      rw [IrExpr.pointee] at hpointee
      obtain ⟨array, size, harray, rfl⟩ := value_sliceFromArray hrun
      obtain ⟨target, hdata, hcell⟩ := pointsTo_slice hpoints
      obtain rfl := Option.some.inj hdata
      have hfinds := place_of_owner hcallee inner base hpointee harray
      rw [← hcell]
      exact hfinds
  | addr _ target =>
      rw [IrExpr.pointee] at hpointee
      obtain ⟨found, hfound, rfl⟩ := value_addr hrun
      rw [← pointsTo_ptr hpoints]
      exact place_of_owner hcallee target base hpointee hfound
  | sliceView _ inner start stop =>
      rw [IrExpr.pointee] at hpointee
      rw [denote] at hrun
      obtain ⟨first, middle, hstart, hrest⟩ := bind_eq_ok.mp hrun
      have hmiddle := retires_bound hcallee start _ _ _ hstart
      cases hsize : inner.type.arraySize? with
      | some size =>
          rw [hsize] at hrest hpointee
          obtain ⟨array, behind, harray, hlate⟩ := bind_eq_ok.mp hrest
          obtain ⟨last, later, hstop, hend⟩ := bind_eq_ok.mp hlate
          obtain ⟨rfl, rfl⟩ := pure_eq_ok.mp hend
          obtain ⟨target, hdata, hcell⟩ := pointsTo_slice hpoints
          obtain rfl := Option.some.inj hdata
          have hfinds := (place_of_owner hcallee inner base hpointee harray).widen hmiddle
            (retires_bound hcallee stop _ _ _ hstop)
          rw [← hcell]
          exact hfinds
      | none =>
          rw [hsize] at hrest hpointee
          obtain ⟨slice, behind, hslice, hlate⟩ := bind_eq_ok.mp hrest
          obtain ⟨parts, same, hparts, hmore⟩ := bind_eq_ok.mp hlate
          obtain ⟨rfl, rfl⟩ := sliceParts_eq_ok hparts
          obtain ⟨data, moved, hadvance, hbehind⟩ := bind_eq_ok.mp hmore
          obtain ⟨last, later, hstop, hend⟩ := bind_eq_ok.mp hbehind
          obtain ⟨rfl, rfl⟩ := pure_eq_ok.mp hend
          obtain ⟨target, hdata, hcell⟩ := pointsTo_slice hpoints
          obtain ⟨⟨origin, horigin, hsame⟩, rfl⟩ := advance_eq_ok hadvance hdata
          have hfinds := pointer_of_pointee hcallee inner base hpointee hslice
            ⟨origin, hsame.trans hcell, .inr ⟨parts.2, by rw [horigin]⟩⟩
          exact hfinds.widen hmiddle (retires_bound hcallee stop _ _ _ hstop)
  | _ => simp [IrExpr.pointee] at hpointee

end

/-! The store. -/

/-- The run of the pointer or slice that the path of a target goes through last, with what the
path evaluates in front of it. -/
def pointerRun (structs : StructTable) (callee : Callee ω) (env : Env) : IrExpr → Eval ω Value
  | .deref _ target => (denote structs callee env target).value
  | .field _ base _ =>
      if base.type.isPtr then (denote structs callee env base).value
      else pointerRun structs callee env base
  | .index _ base index => do
      let _ ← (← (denote structs callee env index).value).asInt
      if base.type.isSlice then (denote structs callee env base).value
      else pointerRun structs callee env base
  | _ => Eval.undefined

theorem place_of_pointer : (target : IrExpr) → target.pointerBase.isSome = true →
    ∀ {state after : State ω} {place : Place},
      (denote structs callee env target).place state = .ok place after →
        ∃ value, pointerRun structs callee env target state = .ok value after ∧
          Value.PointsTo value place
  | .deref _ pointer, _, state, after, place, hrun =>
      ⟨_, place_deref hrun, place, rfl, .inl rfl⟩
  | .field _ inner fieldName, hbase, state, after, place, hrun => by
      rw [IrExpr.pointerBase] at hbase
      rw [pointerRun]
      cases hptr : inner.type.isPtr with
      | true => exact ⟨_, place_pointerField hptr hrun, place, rfl, .inl rfl⟩
      | false =>
          rw [hptr] at hbase
          obtain ⟨aggregate, field, hinner, -, rfl⟩ := place_field hptr hrun
          have hpoints := place_of_pointer inner hbase hinner
          exact hpoints
  | .index _ inner index, hbase, state, after, place, hrun => by
      rw [IrExpr.pointerBase] at hbase
      rw [pointerRun]
      cases hslice : inner.type.isSlice with
      | true =>
          obtain ⟨value, middle, position, target, length, hindex, hposition, hvalue, hcell⟩ :=
            place_sliceIndex hslice hrun
          exact ⟨_, (bind_of_ok hindex).trans ((bind_of_ok hposition).trans hvalue), target, hcell,
            .inr ⟨length, rfl⟩⟩
      | false =>
          rw [hslice] at hbase
          obtain ⟨value, middle, position, array, hindex, hposition, hinner, rfl⟩ :=
            place_index hslice hrun
          obtain ⟨found, hfound, hpoints⟩ := place_of_pointer inner hbase hinner
          exact ⟨found, (bind_of_ok hindex).trans ((bind_of_ok hposition).trans hfound), hpoints⟩

/-- A place that came to be between two states, in a copy on the stack. -/
def Temporary (before after : State ω) (place : Place) : Prop :=
  before.cells.length ≤ place.cell ∧
    ∃ cell, after.cells[place.cell]? = some cell ∧ cell.storage = .stack ∧ cell.live = true

/-- The place is storage of a local, or what the pointer or slice on the way there points to,
and no copy made on the way. -/
def StoresInPlace (structs : StructTable) (callee : Callee ω) (env : Env) (target : IrExpr)
    (state after : State ω) (place : Place) : Prop :=
  (env.Owns place ∨ ∃ value, pointerRun structs callee env target state = .ok value after ∧
      Value.PointsTo value place) ∧
    ¬ Temporary state after place

theorem denote_rvalue {expression : IrExpr} (hplace : expression.isPlace = false) :
    ∃ value, denote structs callee env expression = Meaning.rvalue value := by
  cases expression with
  | binary type op left right =>
      cases op with
      | and => exact ⟨_, by rw [denote]⟩
      | or => exact ⟨_, by rw [denote]⟩
      | _ => exact ⟨_, by rw [denote] <;> simp⟩
  | «local» | field | index | deref => cases hplace
  | _ => exact ⟨_, by rw [denote]⟩

theorem rvalue_is_copied (hcallee : callee.Keeps State.Retires) {expression : IrExpr}
    (hplace : expression.isPlace = false) {state after : State ω} {place : Place}
    (hrun : (denote structs callee env expression).place state = .ok place after) :
    state.cells.length ≤ place.cell ∧
      ∃ cell, after.cells[place.cell]? = some cell ∧ cell.storage = .stack := by
  obtain ⟨value, hvalue⟩ : ∃ value, denote structs callee env expression = Meaning.rvalue value :=
    denote_rvalue hplace
  have hretires : Keeps State.Retires (denote structs callee env expression).value :=
    retires_value hcallee expression
  rw [hvalue] at hrun hretires
  obtain ⟨result, middle, hresult, hallocate⟩ := bind_eq_ok.mp hrun
  obtain ⟨rfl, rfl⟩ := allocate_eq_ok hallocate
  exact ⟨(hretires _ _ _ hresult).length_le, _, List.getElem?_concat_length, rfl⟩

/-! Reading back what was stored. -/

def PurePath (structs : StructTable) (callee : Callee ω) (env : Env) : IrExpr → Prop
  | .deref _ target => Pure (denote structs callee env target).value
  | .field _ base _ =>
      if base.type.isPtr then Pure (denote structs callee env base).value
      else PurePath structs callee env base
  | .index _ base index =>
      Pure (denote structs callee env index).value ∧
        if base.type.isSlice then Pure (denote structs callee env base).value
        else PurePath structs callee env base
  | _ => True

theorem load_eq (place : Place) (state : State ω) :
    Eval.load place state = Eval.ofOption (state.load? place) state :=
  rfl

theorem value_of_lvalue {expression : IrExpr} {place : Eval ω Place}
    (hlvalue : denote structs callee env expression = Meaning.lvalue place)
    {state : State ω} {target : Place}
    (hrun : (denote structs callee env expression).place state = .ok target state) :
    (denote structs callee env expression).value state = Eval.load target state := by
  rw [hlvalue] at hrun ⊢
  exact bind_of_ok hrun

end

theorem get?_append (value : Value) (path : List Int) (index : Int) :
    value.get? (path ++ [index]) = (value.get? path).bind fun item => item.item? index := by
  induction path generalizing value with
  | nil => simp [Value.get?]
  | cons head rest ih => simp only [List.cons_append, Value.get?, Option.bind_assoc, ih]

theorem load?_child (state : State ω) (place : Place) (index : Int) :
    state.load? (place.child index) =
      (state.load? place).bind fun value => value.item? index := by
  simp only [State.load?, Place.child, Option.bind_eq_bind]
  cases state.cells[place.cell]? with
  | none => rfl
  | some cell =>
      simp only [Option.bind_some]
      split
      · exact get?_append _ _ _
      · rfl

theorem get?_of_set? {stored : Value} (path : List Int) :
    ∀ {value changed : Value}, value.set? stored path = some changed →
      changed.get? path = some stored := by
  induction path with
  | nil =>
      intro value changed hset
      rw [← Option.some.inj hset]
      rfl
  | cons index rest ih =>
      intro value changed hset
      cases value with
      | aggregate items =>
          simp only [Value.set?] at hset
          split at hset
          · cases hset
          · rename_i hindex
            simp only [Option.bind_eq_bind, Option.bind_eq_some_iff, Option.pure_def,
              Option.some.injEq] at hset
            obtain ⟨item, hitem, inner, hinner, rfl⟩ := hset
            have hlength := (List.getElem?_eq_some_iff.mp hitem).1
            simp only [Value.get?, Value.item?, if_neg hindex, List.getElem?_set_self hlength,
              Option.bind_some]
            exact ih hinner
      | _ => simp [Value.set?] at hset

theorem load?_of_store? {state after : State ω} {place : Place} {value : Value}
    (hstore : state.store? place value = some after) : after.load? place = some value := by
  obtain ⟨cell, changed, hcell, hlive, hset, rfl⟩ := store?_eq_some hstore
  have hlength := (List.getElem?_eq_some_iff.mp hcell).1
  simp [State.load?, List.getElem?_set_self hlength, hlive, get?_of_set? _ hset]

theorem load_of_store {state stored : State ω} {place : Place} {value : Value}
    (hstore : Eval.store place value state = .ok () stored) :
    Eval.load place stored = .ok value stored := by
  rw [load_eq, load?_of_store? (store_eq_ok.mp hstore)]
  rfl

section

variable {structs : StructTable} {callee : Callee ω} {env : Env}

/-- A step into the value of the base, once the base reads its own place. -/
theorem value_of_child {run : Eval ω Value} {array : Place} {state : State ω} {index : Int}
    (hbase : run state = Eval.load array state) (next : Value → Eval ω Value)
    (hnext : ∀ value, next value state = Eval.ofOption (value.item? index) state) :
    (run >>= next) state = Eval.load (array.child index) state := by
  rw [load_eq, load?_child]
  rw [load_eq] at hbase
  cases hload : state.load? array with
  | none =>
      rw [hload] at hbase
      rw [bind_of_error hbase]
      rfl
  | some value =>
      rw [hload] at hbase
      rw [bind_of_ok hbase, hnext]
      rfl

/-- A pure path to storage reads what stands in its place. -/
theorem value_of_place (target : IrExpr) (hrooted : target.Rooted)
    (hpure : PurePath structs callee env target) {state after : State ω} {place : Place}
    (hrun : (denote structs callee env target).place state = .ok place after) :
    after = state ∧ (denote structs callee env target).value state = Eval.load place state := by
  cases target with
  | «local» _ name =>
      have hsame : after = state := by
        rw [denote] at hrun
        obtain ⟨_, -, -, hsame⟩ := lookupLocal_eq_ok hrun
        exact hsame
      subst hsame
      exact ⟨rfl, value_of_lvalue (by rw [denote]) hrun⟩
  | deref _ target =>
      obtain rfl := hpure _ _ _ (place_deref hrun)
      exact ⟨rfl, value_of_lvalue (by rw [denote]) hrun⟩
  | field _ base fieldName =>
      rw [PurePath] at hpure
      cases hptr : base.type.isPtr with
      | true =>
          rw [hptr] at hpure
          obtain rfl := hpure _ _ _ (place_pointerField hptr hrun)
          exact ⟨rfl, value_of_lvalue (by rw [denote, if_pos hptr]) hrun⟩
      | false =>
          have hbase : base.Rooted := (IrExpr.rooted_field hptr).mp hrooted
          rw [hptr] at hpure
          obtain ⟨aggregate, field, haggregate, hfield, rfl⟩ := place_field hptr hrun
          obtain ⟨rfl, hvalue⟩ := value_of_place base hbase hpure haggregate
          refine ⟨rfl, ?_⟩
          rw [denote, if_neg (by simp [hptr])]
          refine value_of_child hvalue _ fun value => ?_
          rw [hfield]
          rfl
  | index _ base index =>
      rw [PurePath] at hpure
      cases hslice : base.type.isSlice with
      | true =>
          rw [hslice] at hpure
          obtain ⟨value, middle, position, target, length, hindex, -, hvalue, -⟩ :=
            place_sliceIndex hslice hrun
          obtain rfl := hpure.1 _ _ _ hindex
          obtain rfl := hpure.2 _ _ _ hvalue
          exact ⟨rfl, value_of_lvalue (by rw [denote, if_pos hslice]) hrun⟩
      | false =>
          have hbase : base.Rooted := (IrExpr.rooted_index hslice).mp hrooted
          rw [hslice] at hpure
          obtain ⟨value, middle, position, array, hindex, hposition, harray, rfl⟩ :=
            place_index hslice hrun
          obtain rfl := hpure.1 _ _ _ hindex
          obtain ⟨rfl, hvalue⟩ := value_of_place base hbase hpure.2 harray
          refine ⟨rfl, ?_⟩
          rw [denote, if_neg (by simp [hslice])]
          refine (bind_of_ok hindex).trans ((bind_of_ok hposition).trans ?_)
          exact value_of_child hvalue _ fun value => rfl
  | _ => exact absurd hrooted (IrExpr.not_rooted rfl)

end

mutual

/-- What has a place and is reached by no step is a local. -/
theorem owner_isLocal (target base : IrExpr) (howner : target.owner = some base)
    (hplace : base.isPlace = true) : ∃ type name, base = .local type name := by
  cases target with
  | field _ inner _ | index _ inner _ =>
      rw [IrExpr.owner] at howner
      split at howner
      · exact pointee_isLocal inner base howner hplace
      · exact owner_isLocal inner base howner hplace
  | deref _ pointer =>
      rw [IrExpr.owner] at howner
      exact pointee_isLocal pointer base howner hplace
  | «local» type name =>
      cases howner
      exact ⟨type, name, rfl⟩
  | _ =>
      cases howner
      cases hplace

theorem pointee_isLocal (pointer base : IrExpr) (hpointee : pointer.pointee = some base)
    (hplace : base.isPlace = true) : ∃ type name, base = .local type name := by
  cases pointer with
  | sliceFromArray _ inner | addr _ inner =>
      rw [IrExpr.pointee] at hpointee
      exact owner_isLocal inner base hpointee hplace
  | sliceView _ inner _ _ =>
      rw [IrExpr.pointee] at hpointee
      split at hpointee
      · exact owner_isLocal inner base hpointee hplace
      · exact pointee_isLocal inner base hpointee hplace
  | _ => simp [IrExpr.pointee] at hpointee

end

/-- What is behind a pointer made elsewhere is behind a pointer. -/
theorem isLoaded_pointerBase (target : IrExpr) (hloaded : target.isLoaded = true) :
    target.pointerBase.isSome = true := by
  cases target with
  | field _ base _ =>
      rw [IrExpr.isLoaded, IrExpr.owner] at hloaded
      rw [IrExpr.pointerBase]
      cases hptr : base.type.isPtr with
      | true => rfl
      | false =>
          rw [hptr] at hloaded
          exact isLoaded_pointerBase base hloaded
  | index _ base _ =>
      rw [IrExpr.isLoaded, IrExpr.owner] at hloaded
      rw [IrExpr.pointerBase]
      cases hslice : base.type.isSlice with
      | true => rfl
      | false =>
          rw [hslice] at hloaded
          exact isLoaded_pointerBase base hloaded
  | deref _ _ => rfl
  | _ => simp [IrExpr.isLoaded, IrExpr.owner] at hloaded

/-- A target that no copy owns starts at a local or goes through a pointer. -/
theorem rooted_of_not_copied (target : IrExpr) (hcopied : target.isCopied = false) :
    target.Rooted := by
  cases target with
  | field _ base _ =>
      rw [IrExpr.isCopied, IrExpr.owner] at hcopied
      cases hptr : base.type.isPtr with
      | true => exact .inr (by rw [IrExpr.pointerBase, if_pos hptr, Option.isSome_some])
      | false =>
          rw [hptr] at hcopied
          exact (IrExpr.rooted_field hptr).mpr (rooted_of_not_copied base hcopied)
  | index _ base _ =>
      rw [IrExpr.isCopied, IrExpr.owner] at hcopied
      cases hslice : base.type.isSlice with
      | true => exact .inr (by rw [IrExpr.pointerBase, if_pos hslice, Option.isSome_some])
      | false =>
          rw [hslice] at hcopied
          exact (IrExpr.rooted_index hslice).mpr (rooted_of_not_copied base hcopied)
  | deref _ _ => exact .inr rfl
  | «local» _ _ => exact .inl rfl
  | _ => simp [IrExpr.isCopied, IrExpr.owner, IrExpr.isPlace] at hcopied

section

variable {program : IrProgram} {runtime : Callee ω} {fuel : Nat} {function : IrFunction} {env : Env}
  {target value : IrExpr} {state between after : State ω} {place : Place} {stored : Value}

/-- In a call of the function control comes to the assignment, which stores. -/
structure Assigns (program : IrProgram) (runtime : Callee ω) (fuel : Nat) (function : IrFunction)
    (env : Env) (target value : IrExpr) (state between after : State ω) (place : Place)
    (stored : Value) : Prop where
  reached : ∃ arguments start bound entered,
    bindArguments (Env.push []) function.parameters arguments start = .ok bound entered ∧
      Visits program.structTable (runCall program runtime fuel) fuel bound entered function.body
        env state (.assign target value)
  found : (denote program.structTable (runCall program runtime fuel) env target).place state =
    .ok place between
  stores : ∃ behind,
    (denote program.structTable (runCall program runtime fuel) env value).value between =
      .ok stored behind ∧ Eval.store place stored behind = .ok () after

namespace Assigns

theorem allocated (hruntime : runtime.Keeps State.Retires)
    (hassigns : Assigns program runtime fuel function env target value state between after place
      stored) : env.Allocated state := by
  obtain ⟨arguments, start, bound, entered, hbind, hvisits⟩ := hassigns.reached
  exact hvisits.allocated (keeps_runCall hruntime fuel) (parameters_allocated hbind)

/-- What is stored to was alive when the place was found. -/
theorem live (hruntime : runtime.Keeps State.Retires)
    (hassigns : Assigns program runtime fuel function env target value state between after place
      stored) {cell : Cell} (hcell : between.cells[place.cell]? = some cell) :
    cell.live = true := by
  obtain ⟨behind, hvalue, hstore⟩ := hassigns.stores
  obtain ⟨later, hlater, -, hkept⟩ :=
    retires_value (keeps_runCall hruntime fuel) value _ _ _ hvalue _ _ hcell
  obtain ⟨old, changed, hold, hlive, -, -⟩ := store?_eq_some (store_eq_ok.mp hstore)
  rw [hlater] at hold
  obtain rfl := Option.some.inj hold
  exact hkept hlive

/-- A copy that the path leads to came to be on the way. -/
theorem temporary (hruntime : runtime.Keeps State.Retires)
    (hassigns : Assigns program runtime fuel function env target value state between after place
      stored) {base : IrExpr} (howner : target.owner = some base) (hplace : base.isPlace = false) :
    Temporary state between place := by
  have hcallee : (runCall program runtime fuel).Keeps State.Retires := keeps_runCall hruntime fuel
  obtain ⟨start, stop, inner, hstart, hinner, hstop, hcell⟩ :=
    place_of_owner hcallee target base howner hassigns.found
  obtain ⟨hnew, cell, hcopy, hstack⟩ := rvalue_is_copied hcallee hplace hinner
  rw [hcell] at hnew hcopy
  obtain ⟨later, hlater, hsame, -⟩ := hstop _ _ hcopy
  exact ⟨Nat.le_trans hstart.length_le hnew, later, hlater, hsame.trans hstack,
    hassigns.live hruntime hlater⟩

/-- A local that the path leads to owns the place. -/
theorem owns (hruntime : runtime.Keeps State.Retires)
    (hassigns : Assigns program runtime fuel function env target value state between after place
      stored) {type : TypeRef} {name : Name} (howner : target.owner = some (.local type name)) :
    env.Owns place := by
  obtain ⟨start, stop, inner, -, hinner, -, hcell⟩ :=
    place_of_owner (keeps_runCall hruntime fuel) target _ howner hassigns.found
  rw [denote] at hinner
  obtain ⟨found, hfound, rfl, -⟩ := lookupLocal_eq_ok hinner
  exact ⟨name, found, hfound, hcell.symm⟩

end Assigns

/-- The local has its cell before the assignment, which is no copy then. -/
theorem not_temporary_of_owns (howns : env.Owns place) (henv : env.Allocated state) :
    ¬ Temporary state between place := by
  obtain ⟨name, found, hfound, hcell⟩ := howns
  rintro ⟨hnew, -⟩
  rw [hcell] at hnew
  exact absurd (henv name found hfound) (Nat.not_lt_of_le hnew)

theorem not_temporary_of_quiet (hquiet : state.Quiet between) :
    ¬ Temporary state between place := by
  rintro ⟨hnew, cell, hcell, hstack, hlive⟩
  exact absurd (hquiet.stack hcell hlive hstack) (Nat.not_lt_of_le hnew)

/-- An assignment stores in place just when no copy owns its target; where the place is behind a
pointer or a slice that was made elsewhere, given that the target copies nothing on the way to it.
A pure path then reads the value stored. -/
theorem assignment_stores_iff (hruntime : runtime.Keeps State.Quiet)
    (hassigns : Assigns program runtime fuel function env target value state between after place
      stored) :
    ((target.isLoaded = true → target.copiesNothing = true) →
      (StoresInPlace program.structTable (runCall program runtime fuel) env target state between
          place ↔ target.isCopied = false)) ∧
    (target.isCopied = false →
      PurePath program.structTable (runCall program runtime fuel) env target →
        ∀ last, (denote program.structTable (runCall program runtime fuel) env target).place after =
            .ok place last →
          (denote program.structTable (runCall program runtime fuel) env target).value after =
            .ok stored after) := by
  have hretires := hruntime.retires
  refine ⟨fun hloaded => ⟨fun hinPlace => ?_, fun hcopied => ?_⟩,
    fun hcopied hpure last hagain => ?_⟩
  · cases howner : target.owner with
    | none => rw [IrExpr.isCopied, howner, Option.any_none]
    | some base =>
        rw [IrExpr.isCopied, howner, Option.any_some, Bool.not_eq_false']
        by_contra hplace
        exact hinPlace.2 (hassigns.temporary hretires howner (Bool.eq_false_iff.mpr hplace))
  · cases howner : target.owner with
    | some base =>
        -- No copy, so the owner is a local.
        rw [IrExpr.isCopied, howner] at hcopied
        obtain ⟨type, name, rfl⟩ := owner_isLocal target base howner (by simpa using hcopied)
        have howns := hassigns.owns hretires howner
        exact ⟨.inl howns, not_temporary_of_owns howns (hassigns.allocated hretires)⟩
    | none =>
        have hmade : target.isLoaded = true := by rw [IrExpr.isLoaded, howner, Option.isNone_none]
        have hbase := isLoaded_pointerBase target hmade
        refine ⟨.inr (place_of_pointer target hbase hassigns.found), not_temporary_of_quiet ?_⟩
        exact quiet_place (quiet_runCall hruntime fuel) (hloaded hmade) (.inr hbase) _ _ _
          hassigns.found
  · obtain ⟨behind, -, hstore⟩ := hassigns.stores
    rw [(value_of_place target (rooted_of_not_copied target hcopied) hpure hagain).2]
    exact load_of_store hstore

end

/-- `t[1]` -/
def viewTarget : IrExpr :=
  .index .int (.local (.slice .int) "t") (.int .int 1)

/-- `let mut a:int[2] = [1, 2]; let t:slice int = a; if true { t[1] = 5; }` -/
def viewFunction : IrFunction :=
  ⟨false, "main", "main", .void, [], [
    .letStmt "a" true (.array .int 2) (.arrayLiteral (.array .int 2) [.int .int 1, .int .int 2]),
    .letStmt "t" false (.slice .int) (.sliceFromArray (.slice .int) (.local (.array .int 2) "a")),
    .ifStmt (.bool .bool true) [.assign viewTarget (.int .int 5)] none]⟩

def viewEnv : Env :=
  (((Env.push []).define "a" 0).define "t" 1).push

def viewRuntime : Callee Unit :=
  fun _ _ _ _ => pure .void

def beforeView : State Unit :=
  ⟨[⟨.stack, true, .aggregate [.int 1, .int 2]⟩, ⟨.stack, true, .slice (some ⟨0, [0]⟩) 2⟩], [], (),
    []⟩

def behindView : State Unit :=
  ⟨[⟨.stack, true, .aggregate [.int 1, .int 5]⟩, ⟨.stack, true, .slice (some ⟨0, [0]⟩) 2⟩], [], (),
    [.store ⟨0, [1]⟩ (.int 5)]⟩

theorem view_assigns :
    Assigns ⟨[]⟩ viewRuntime 1 viewFunction viewEnv viewTarget (.int .int 5) beforeView beforeView
      behindView ⟨0, [1]⟩ (.int 5) where
  reached := ⟨[], ⟨[], [], (), []⟩, _, _, rfl,
    .behind rfl (.behind rfl (.inside (.thenBlock rfl) .here))⟩
  found := rfl
  stores := ⟨_, rfl, rfl⟩

theorem local_is_pure {structs : StructTable} {callee : Callee ω} {env : Env} {type : TypeRef}
    {name : Name} : Pure (denote structs callee env (.local type name)).value := by
  intro state value after hrun
  rw [value_local] at hrun
  exact (ofOption_eq_ok.mp hrun).2.symm

theorem view_is_pure :
    PurePath (IrProgram.structTable ⟨[]⟩) (runCall ⟨[]⟩ viewRuntime 1) viewEnv viewTarget :=
  ⟨fun _ _ _ hrun => (pure_eq_ok.mp hrun).2.symm, local_is_pure⟩

theorem view_stores_in_place :
    StoresInPlace (IrProgram.structTable ⟨[]⟩) (runCall ⟨[]⟩ viewRuntime 1) viewEnv viewTarget
        beforeView beforeView ⟨0, [1]⟩ ∧
      (denote (IrProgram.structTable ⟨[]⟩) (runCall ⟨[]⟩ viewRuntime 1) viewEnv viewTarget).value
        behindView = .ok (.int 5) behindView := by
  have hstores := assignment_stores_iff (fun _ _ _ _ => keeps_pure _) view_assigns
  exact ⟨(hstores.1 fun _ => by decide).mpr (by decide),
    hstores.2 (by decide) view_is_pure behindView rfl⟩

/-- `const C:P = P { x: 1 }`, and a function that assigns 5 to `C.x` and returns it. -/
def constFieldProject : Project :=
  ⟨[⟨false, "main", ⟨[], [⟨false, "C", .named "" "P", .structLiteral "" "P" [("x", .int 1)]⟩],
    [⟨false, "P", [⟨"x", .int⟩]⟩],
    [mainFunction [
      .assign (.field (.name "C") "x") (.int 5),
      .returnStmt (some (.field (.name "C") "x"))]]⟩, []⟩]⟩

/-- `const C:int[2] = [1, 2]`, and a function that assigns 5 to `C[0..1][0]` and returns it. -/
def constSliceProject : Project :=
  ⟨[⟨false, "main", ⟨[], [⟨false, "C", .array .int 2, .arrayLiteral [.int 1, .int 2] none⟩], [],
    [mainFunction [
      .assign (.index (.sliceView (.name "C") (some (.int 0)) (some (.int 1))) (.int 0)) (.int 5),
      .returnStmt (some
        (.index (.sliceView (.name "C") (some (.int 0)) (some (.int 1))) (.int 0)))]]⟩, []⟩]⟩

/-- The project is accepted, its `main` assigns 5 to a copy, and 1 is read back. -/
def LosesStore (project : Project) : Prop :=
  Check.Accepted project ∧
    ∃ program, Lower.lowerProject project = some program ∧
      (∃ module ∈ program.modules, ∃ function ∈ module.functions, ∃ target rest,
        function.body = .assign target (.int .int 5) :: rest ∧ target.isCopied = true) ∧
      mainResult program 4 = some 1

theorem field_store_is_lost : LosesStore constFieldProject := by
  exact ⟨by decide, _, rfl, ⟨_, .head _, _, .head _, _, _, rfl, rfl⟩, rfl⟩

theorem slice_store_is_lost : LosesStore constSliceProject := by
  exact ⟨by decide, _, rfl, ⟨_, .head _, _, .head _, _, _, rfl, rfl⟩, rfl⟩

theorem assignment_to_constant_is_lost :
    LosesStore constFieldProject ∧ LosesStore constSliceProject :=
  ⟨field_store_is_lost, slice_store_is_lost⟩

end Semantics

end Cnegative
