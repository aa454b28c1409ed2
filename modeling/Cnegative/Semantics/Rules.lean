import Cnegative.Library.Runs
import Cnegative.Semantics.Region
import Cnegative.Semantics.Roots
import Cnegative.Semantics.Stmt

namespace Cnegative

namespace Semantics

open Library.Runs

variable {ω α β : Type}

/-! Rules for runs: a property that composes and that every step has is a property of all
programs.  Values and places stay in a region on the way, and where nothing may be copied to the
stack the programs are those that copy nothing. -/

/-- What is asked of the steps of an expression. -/
structure ExprRules (ω : Type) where
  region : Region
  /-- A value may be copied to the stack. -/
  copies : Bool
  /-- The run has the property, and its results satisfy the predicate. -/
  Allows : ∀ {α : Type}, Eval ω α → (α → Prop) → Prop
  allows_pure : ∀ {α : Type} {P : α → Prop} (a : α), P a → Allows (pure a) P
  allows_throw : ∀ {α : Type} {P : α → Prop} (fault : Fault), Allows (throw fault : Eval ω α) P
  allows_bind : ∀ {α β : Type} {first : Eval ω α} {next : α → Eval ω β} {P : α → Prop}
    {Q : β → Prop}, Allows first P → (∀ a, P a → Allows (next a) Q) → Allows (first >>= next) Q
  allows_load : ∀ {place : Place}, region.cell place.cell →
    Allows (Eval.load place) (Value.Inside region)
  allows_allocate : ∀ {storage : Storage} {value : Value}, (storage = .stack → copies = true) →
    value.Inside region → Allows (Eval.allocate storage value) fun place => region.cell place.cell
  allows_equal : ∀ left right, Allows (Eval.equal left right) fun _ => True
  allows_zoneAllocate : ∀ {zone value : Value}, zone.Inside region → value.Inside region →
    Allows (Eval.zoneAllocate zone value) (Value.Inside region)

/-- What is asked of the steps of a statement besides, and of a frame on the stack. -/
structure StmtRules (ω : Type) extends ExprRules ω where
  copies_eq : copies = true
  allows_log : ∀ event, Allows (Eval.log event) fun _ => True
  allows_releaseZone : ∀ {zone : Value}, zone.Inside region →
    Allows (Eval.releaseZone zone) fun _ => True
  allows_store : ∀ {place : Place} {value : Value}, region.cell place.cell → value.Inside region →
    Allows (Eval.store place value) fun _ => True
  allows_enterZone : Allows Eval.enterZone region.zone
  allows_free : ∀ {value : Value}, value.Inside region → Allows (Eval.free value) fun _ => True
  allows_activation : ∀ {α : Type} {P : α → Prop} {body : Eval ω α}, Allows body P →
    Allows (do
      let base := (← get).cells.length
      let a ← body
      modify fun state => state.dropFrame base
      return a) P

theorem ExprRules.Allows.bind {rules : ExprRules ω} {first : Eval ω α} {next : α → Eval ω β}
    {P : α → Prop} {Q : β → Prop} (hfirst : rules.Allows first P)
    (hnext : ∀ a, P a → rules.Allows (next a) Q) : rules.Allows (first >>= next) Q :=
  rules.allows_bind hfirst hnext

theorem ExprRules.Allows.ite {rules : ExprRules ω} {condition : Prop} [Decidable condition]
    {first second : Eval ω α} {P : α → Prop} (hfirst : rules.Allows first P)
    (hsecond : rules.Allows second P) : rules.Allows (if condition then first else second) P := by
  split
  · exact hfirst
  · exact hsecond

namespace ExprRules

variable (rules : ExprRules ω)

/-- Where nothing may be copied to the stack, nothing is. -/
def Permits (copiesNothing : Bool) : Prop :=
  rules.copies = true ∨ copiesNothing = true

theorem permits_and {first second : Bool} :
    rules.Permits (first && second) ↔ rules.Permits first ∧ rules.Permits second := by
  unfold Permits
  rw [Bool.and_eq_true]
  exact or_and_left

/-- The value, or the value in the place, is of the region; the place may need a copy. -/
structure AllowsMeaning (meaning : Meaning ω) (target : IrExpr) : Prop where
  value : rules.Allows meaning.value (Value.Inside rules.region)
  place : rules.Permits target.Rooted →
    rules.Allows meaning.place fun place => rules.region.cell place.cell

def AllowsCallee (callee : Callee ω) : Prop :=
  ∀ target moduleName functionName arguments, Value.ItemsInside rules.region arguments →
    rules.Allows (callee target moduleName functionName arguments) (Value.Inside rules.region)

def AllowsCalls (callee : Callee ω) : Prop :=
  ∀ target moduleName functionName arguments, Value.ItemsInside rules.region arguments →
    rules.Allows (evalCall callee target moduleName functionName arguments)
      (Value.Inside rules.region)

theorem allows_undefined {P : α → Prop} : rules.Allows (Eval.undefined : Eval ω α) P :=
  rules.allows_throw _

theorem allows_ofOption {P : α → Prop} {option : Option α} (hoption : ∀ a, option = some a → P a) :
    rules.Allows (Eval.ofOption option : Eval ω α) P := by
  cases option with
  | none => exact rules.allows_undefined
  | some value => exact rules.allows_pure value (hoption value rfl)

theorem allows_asInt (value : Value) :
    rules.Allows (value.asInt : Eval ω (BitVec 64)) fun _ => True := by
  cases value with
  | int value => exact rules.allows_pure value trivial
  | _ => exact rules.allows_undefined

theorem allows_asBool (value : Value) :
    rules.Allows (value.asBool : Eval ω Bool) fun _ => True := by
  cases value with
  | bool value => exact rules.allows_pure value trivial
  | _ => exact rules.allows_undefined

theorem allows_asPlace {value : Value} (hvalue : value.Inside rules.region) :
    rules.Allows (value.asPlace : Eval ω Place) fun place => rules.region.cell place.cell := by
  unfold Value.asPlace
  split
  · exact rules.allows_pure _ (Value.inside_ptr.mp hvalue)
  · exact rules.allows_undefined

/-! The operators of expressions. -/

theorem allows_evalUnary (op : UnaryOp) (operand : Value) :
    rules.Allows (evalUnary op operand : Eval ω Value) (Value.Inside rules.region) := by
  cases op with
  | negate =>
      exact (rules.allows_asInt _).bind fun _ _ => rules.allows_pure _ (by simp [Value.Inside])
  | not =>
      exact (rules.allows_asBool _).bind fun _ _ => rules.allows_pure _ (by simp [Value.Inside])

theorem allows_divide (operation : BitVec 64 → BitVec 64 → BitVec 64)
    (left right : BitVec 64) :
    rules.Allows (divide operation left right : Eval ω Value) (Value.Inside rules.region) :=
  .ite (rules.allows_throw _)
    (.ite rules.allows_undefined (rules.allows_pure _ (by simp [Value.Inside])))

theorem allows_compare (signed : Int → Int → Bool) (left right : Value) :
    rules.Allows (compare signed left right : Eval ω Value) (Value.Inside rules.region) := by
  unfold compare
  split
  · exact rules.allows_pure _ (by simp [Value.Inside])
  · exact rules.allows_pure _ (by simp [Value.Inside])
  · exact rules.allows_undefined

theorem allows_evalBinary (op : BinaryOp) (left right : Value) :
    rules.Allows (evalBinary op left right : Eval ω Value) (Value.Inside rules.region) := by
  have hints : ∀ next : BitVec 64 → BitVec 64 → Eval ω Value,
      (∀ first second, rules.Allows (next first second) (Value.Inside rules.region)) →
        rules.Allows (do next (← left.asInt) (← right.asInt)) (Value.Inside rules.region) :=
    fun next hnext => (rules.allows_asInt left).bind fun first _ =>
      (rules.allows_asInt right).bind fun second _ => hnext first second
  cases op with
  | add => exact hints _ fun _ _ => rules.allows_pure _ (by simp [Value.Inside])
  | sub => exact hints _ fun _ _ => rules.allows_pure _ (by simp [Value.Inside])
  | mul => exact hints _ fun _ _ => rules.allows_pure _ (by simp [Value.Inside])
  | div => exact hints _ fun _ _ => rules.allows_divide _ _ _
  | mod => exact hints _ fun _ _ => rules.allows_divide _ _ _
  | equal =>
      exact (rules.allows_equal _ _).bind fun _ _ => rules.allows_pure _ (by simp [Value.Inside])
  | notEqual =>
      exact (rules.allows_equal _ _).bind fun _ _ => rules.allows_pure _ (by simp [Value.Inside])
  | less =>
      unfold evalBinary
      exact rules.allows_compare _ left right
  | lessEqual =>
      unfold evalBinary
      exact rules.allows_compare _ left right
  | greater =>
      unfold evalBinary
      exact rules.allows_compare _ left right
  | greaterEqual =>
      unfold evalBinary
      exact rules.allows_compare _ left right
  | and => exact rules.allows_undefined
  | or => exact rules.allows_undefined

def DataInside (region : Region) (data : Option Place) : Prop :=
  (Value.ptr data).Inside region

theorem inside_slice {region : Region} {data : Option Place} {length : BitVec 64} :
    (Value.slice data length).Inside region ↔ DataInside region data := by
  simp [Value.slice, Value.Inside, Value.ItemsInside, DataInside]

theorem DataInside.offset {region : Region} {place target : Place} {count : Int}
    (hdata : DataInside region (some place)) (hoffset : place.offset count = some target) :
    region.cell target.cell := by
  rw [DataInside, Value.inside_ptr] at hdata
  unfold Place.offset at hoffset
  split at hoffset
  · obtain rfl := Option.some.inj hoffset
    exact hdata
  · split at hoffset
    · obtain rfl := Option.some.inj hoffset
      exact hdata
    · cases hoffset

theorem allows_sliceParts {value : Value} (hvalue : value.Inside rules.region) :
    rules.Allows (sliceParts value : Eval ω (Option Place × BitVec 64))
      fun parts => DataInside rules.region parts.1 := by
  unfold sliceParts
  split
  · exact rules.allows_pure _ (inside_slice.mp hvalue)
  · exact rules.allows_undefined

theorem allows_elementPlace {data : Option Place} (hdata : DataInside rules.region data)
    (index : BitVec 64) :
    rules.Allows (elementPlace data index : Eval ω Place)
      fun place => rules.region.cell place.cell := by
  refine rules.allows_ofOption fun target htarget => ?_
  obtain ⟨place, rfl, hoffset⟩ := Option.bind_eq_some_iff.mp htarget
  exact hdata.offset hoffset

theorem allows_advance {data : Option Place} (hdata : DataInside rules.region data)
    (count : BitVec 64) :
    rules.Allows (advance data count : Eval ω (Option Place)) (DataInside rules.region) := by
  unfold advance
  split
  · exact .ite (rules.allows_pure _ hdata) rules.allows_undefined
  · refine (rules.allows_ofOption fun _ htarget => hdata.offset htarget).bind fun target htarget =>
      rules.allows_pure _ ?_
    rw [DataInside, Value.inside_ptr]
    exact htarget

theorem allows_lookupLocal {env : Env} {name : Name} (henv : env.Inside rules.region [name]) :
    rules.Allows (lookupLocal env name : Eval ω Place) fun place => rules.region.cell place.cell :=
  (rules.allows_ofOption (henv name List.mem_cons_self)).bind
    fun _ hfound => rules.allows_pure _ hfound

theorem allows_rvalue {value : Eval ω Value} {target : IrExpr} (htarget : target.isPlace = false)
    (hvalue : rules.Allows value (Value.Inside rules.region)) :
    rules.AllowsMeaning (Meaning.rvalue value) target := by
  refine ⟨hvalue, fun hpermits => ?_⟩
  have hcopies : rules.copies = true := hpermits.resolve_right fun hrooted =>
    IrExpr.not_rooted htarget (of_decide_eq_true hrooted)
  exact hvalue.bind fun _ hinside => rules.allows_allocate (fun _ => hcopies) hinside

theorem allows_lvalue {place : Eval ω Place} {target : IrExpr}
    (hplace : rules.Allows place fun place => rules.region.cell place.cell) :
    rules.AllowsMeaning (Meaning.lvalue place) target :=
  ⟨hplace.bind fun _ hnear => rules.allows_load hnear, fun _ => hplace⟩

section

variable {structs : StructTable} {callee : Callee ω} {env : Env}

mutual

theorem allows_denote (hcalls : rules.AllowsCalls callee) :
    (expression : IrExpr) → env.Inside rules.region expression.lookups →
      rules.Permits expression.copiesNothing →
      rules.AllowsMeaning (denote structs callee env expression) expression
  | .int _ _, _, _ => by
      rw [denote]
      exact rules.allows_rvalue rfl (rules.allows_pure _ (Value.inside_ofInt _ _))
  | .bool _ _, _, _ | .string _ _, _, _ | .null _, _, _ => by
      rw [denote]
      exact rules.allows_rvalue rfl (rules.allows_pure _ (by simp [Value.Inside]))
  | .local _ name, henv, _ => by
      rw [IrExpr.lookups] at henv
      rw [denote]
      exact rules.allows_lvalue (rules.allows_lookupLocal henv)
  | .unary _ op operand, henv, hcopies => by
      rw [IrExpr.copiesNothing] at hcopies
      rw [IrExpr.lookups] at henv
      rw [denote]
      exact rules.allows_rvalue rfl ((allows_denote hcalls operand henv hcopies).value.bind
        fun _ _ => rules.allows_evalUnary _ _)
  | .binary type op left right, henv, hcopies => by
      rw [IrExpr.copiesNothing] at hcopies
      rw [IrExpr.lookups, Env.inside_append] at henv
      rw [permits_and] at hcopies
      have hleft := (allows_denote hcalls left henv.1 hcopies.1).value
      have hright := (allows_denote hcalls right henv.2 hcopies.2).value
      have hboth : rules.AllowsMeaning (Meaning.rvalue do
          evalBinary op (← (denote structs callee env left).value)
            (← (denote structs callee env right).value)) (.binary type op left right) :=
        rules.allows_rvalue rfl (hleft.bind fun _ _ => hright.bind fun _ _ =>
          rules.allows_evalBinary _ _ _)
      cases op with
      | and =>
          rw [denote]
          exact rules.allows_rvalue rfl (hleft.bind fun _ _ => (rules.allows_asBool _).bind
            fun _ _ => .ite hright (rules.allows_pure _ (by simp [Value.Inside])))
      | or =>
          rw [denote]
          exact rules.allows_rvalue rfl (hleft.bind fun _ _ => (rules.allows_asBool _).bind
            fun _ _ => .ite (rules.allows_pure _ (by simp [Value.Inside])) hright)
      | _ =>
          rw [denote]
          · exact hboth
          all_goals simp
  | .ifExpr _ condition thenExpr elseExpr, henv, hcopies => by
      rw [IrExpr.copiesNothing] at hcopies
      rw [IrExpr.lookups, Env.inside_append, Env.inside_append] at henv
      rw [permits_and, permits_and] at hcopies
      rw [denote]
      have hcondition := (allows_denote hcalls condition henv.1.1 hcopies.1).value
      exact rules.allows_rvalue rfl (hcondition.bind fun _ _ =>
        (rules.allows_asBool _).bind fun _ _ => .ite
          (allows_denote hcalls thenExpr henv.1.2 hcopies.2.1).value
          (allows_denote hcalls elseExpr henv.2 hcopies.2.2).value)
  | .call _ target moduleName functionName arguments, henv, hcopies => by
      rw [IrExpr.copiesNothing] at hcopies
      rw [IrExpr.lookups] at henv
      rw [denote]
      exact rules.allows_rvalue rfl ((allows_denoteItems hcalls arguments henv hcopies).bind
        fun _ hinside => hcalls _ _ _ _ hinside)
  | .arrayLiteral _ items, henv, hcopies => by
      rw [IrExpr.copiesNothing] at hcopies
      rw [IrExpr.lookups] at henv
      rw [denote]
      refine rules.allows_rvalue rfl ((allows_denoteItems hcalls items henv hcopies).bind
        fun _ hinside => rules.allows_pure _ ?_)
      rw [Value.Inside]
      exact hinside
  | .sliceFromArray _ base, henv, hcopies => by
      rw [IrExpr.copiesNothing] at hcopies
      rw [IrExpr.lookups] at henv
      rw [permits_and] at hcopies
      have hbase := (allows_denote hcalls base henv hcopies.1).place hcopies.2
      rw [denote]
      refine rules.allows_rvalue rfl (hbase.bind fun _ hnear =>
        (rules.allows_ofOption fun _ _ => trivial).bind fun _ _ => rules.allows_pure _ ?_)
      rw [inside_slice, DataInside, Value.inside_ptr]
      exact hnear
  | .index _ base index, henv, hcopies => by
      rw [IrExpr.copiesNothing] at hcopies
      rw [IrExpr.lookups, Env.inside_append] at henv
      rw [permits_and] at hcopies
      have hbase := allows_denote hcalls base henv.1 hcopies.1
      have hindex := (allows_denote hcalls index henv.2 hcopies.2).value
      rw [denote]
      split
      · exact rules.allows_lvalue (hindex.bind fun _ _ => (rules.allows_asInt _).bind fun _ _ =>
          hbase.value.bind fun _ hinside => (rules.allows_sliceParts hinside).bind fun _ hdata =>
            rules.allows_elementPlace hdata _)
      · next hslice =>
          refine ⟨hindex.bind fun _ _ => (rules.allows_asInt _).bind fun _ _ =>
            hbase.value.bind fun _ hinside => rules.allows_ofOption fun _ hitem =>
              Value.inside_item? hinside hitem, fun hrooted => ?_⟩
          simp only [IrExpr.rooted_index (Bool.eq_false_iff.mpr hslice)] at hrooted
          exact hindex.bind fun _ _ => (rules.allows_asInt _).bind fun _ _ =>
            (hbase.place hrooted).bind fun _ hnear => rules.allows_pure _ hnear
  | .sliceView _ base start stop, henv, hcopies => by
      rw [IrExpr.copiesNothing] at hcopies
      rw [IrExpr.lookups, Env.inside_append, Env.inside_append] at henv
      rw [permits_and, permits_and, permits_and] at hcopies
      have hbase := allows_denote hcalls base henv.1.1 hcopies.1.1
      have hstart := allows_denoteBound hcalls start henv.1.2 hcopies.2.1
      have hstop := allows_denoteBound hcalls stop henv.2 hcopies.2.2
      rw [denote]
      refine rules.allows_rvalue rfl (hstart.bind fun _ _ => ?_)
      split
      · next size hsize =>
          rw [hsize] at hcopies
          refine (hbase.place hcopies.1.2).bind fun _ hnear => hstop.bind fun _ _ =>
            rules.allows_pure _ ?_
          rw [inside_slice, DataInside, Value.inside_ptr]
          exact hnear
      · exact hbase.value.bind fun _ hinside => (rules.allows_sliceParts hinside).bind
          fun _ hparts => (rules.allows_advance hparts _).bind fun _ hdata => hstop.bind
            fun _ _ => rules.allows_pure _ (inside_slice.mpr hdata)
  | .field _ base fieldName, henv, hcopies => by
      rw [IrExpr.copiesNothing] at hcopies
      rw [IrExpr.lookups] at henv
      have hbase := allows_denote hcalls base henv hcopies
      rw [denote]
      split
      · exact rules.allows_lvalue (hbase.value.bind fun _ hinside => rules.allows_asPlace hinside)
      · next hptr =>
          refine ⟨hbase.value.bind fun _ hinside => (rules.allows_ofOption fun _ _ => trivial).bind
            fun _ _ => rules.allows_ofOption fun _ hitem => Value.inside_item? hinside hitem,
            fun hrooted => ?_⟩
          simp only [IrExpr.rooted_field (Bool.eq_false_iff.mpr hptr)] at hrooted
          exact (hbase.place hrooted).bind fun _ hnear =>
            (rules.allows_ofOption fun _ _ => trivial).bind fun _ _ => rules.allows_pure _ hnear
  | .structLiteral type moduleName typeName fields, henv, hcopies => by
      rw [IrExpr.copiesNothing] at hcopies
      rw [IrExpr.lookups] at henv
      rw [denote]
      exact rules.allows_rvalue rfl ((rules.allows_ofOption fun _ _ => trivial).bind fun _ _ =>
        allows_denoteFields hcalls _ fields henv hcopies (Value.inside_zero _ _))
  | .ok _ value, henv, hcopies => by
      rw [IrExpr.copiesNothing] at hcopies
      rw [IrExpr.lookups] at henv
      rw [denote]
      have hvalue := (allows_denote hcalls value henv hcopies).value
      refine rules.allows_rvalue rfl (hvalue.bind fun _ hinside => rules.allows_pure _ ?_)
      simpa [Value.ok, Value.Inside, Value.ItemsInside] using hinside
  | .err type, _, _ => by
      rw [denote]
      refine rules.allows_rvalue rfl ((rules.allows_ofOption fun _ _ => trivial).bind fun _ _ =>
        rules.allows_pure _ ?_)
      simp [Value.err, Value.Inside, Value.ItemsInside, Value.inside_zero]
  | .alloc _ _, _, _ => by
      rw [denote]
      refine rules.allows_rvalue rfl ((rules.allows_allocate (fun hstack => by cases hstack)
        (Value.inside_uninit _ _)).bind
        fun _ hnear => rules.allows_pure _ ?_)
      rw [Value.inside_ptr]
      exact hnear
  | .zalloc _ _ zoneName, henv, _ => by
      rw [IrExpr.lookups] at henv
      rw [denote]
      exact rules.allows_rvalue rfl ((rules.allows_lookupLocal henv).bind fun _ hnear =>
        (rules.allows_load hnear).bind fun _ hzone =>
          rules.allows_zoneAllocate hzone (Value.inside_uninit _ _))
  | .addr _ target, henv, hcopies => by
      rw [IrExpr.copiesNothing] at hcopies
      rw [IrExpr.lookups] at henv
      rw [permits_and] at hcopies
      have htarget := (allows_denote hcalls target henv hcopies.1).place hcopies.2
      rw [denote]
      refine rules.allows_rvalue rfl (.ite (htarget.bind fun _ hnear => rules.allows_pure _ ?_)
        rules.allows_undefined)
      rw [Value.inside_ptr]
      exact hnear
  | .deref _ target, henv, hcopies => by
      rw [IrExpr.copiesNothing] at hcopies
      rw [IrExpr.lookups] at henv
      rw [denote]
      have htarget := (allows_denote hcalls target henv hcopies).value
      exact rules.allows_lvalue (htarget.bind fun _ hinside => rules.allows_asPlace hinside)

theorem allows_denoteItems (hcalls : rules.AllowsCalls callee) :
    (items : List IrExpr) → env.Inside rules.region (itemsLookups items) →
      rules.Permits (itemsCopyNothing items) →
      rules.Allows (denoteItems structs callee env items) (Value.ItemsInside rules.region)
  | [], _, _ => by
      rw [denoteItems]
      exact rules.allows_pure _ (by simp [Value.ItemsInside])
  | item :: rest, henv, hcopies => by
      rw [itemsCopyNothing, permits_and] at hcopies
      rw [itemsLookups, Env.inside_append] at henv
      rw [denoteItems]
      refine (allows_denote hcalls item henv.1 hcopies.1).value.bind fun _ hfirst =>
        (allows_denoteItems hcalls rest henv.2 hcopies.2).bind fun _ hrest => rules.allows_pure _ ?_
      rw [Value.ItemsInside]
      exact ⟨hfirst, hrest⟩

theorem allows_denoteBound (hcalls : rules.AllowsCalls callee) :
    (bound : Option IrExpr) → env.Inside rules.region (boundLookups bound) →
      rules.Permits (boundCopiesNothing bound) →
      rules.Allows (denoteBound structs callee env bound) fun _ => True
  | none, _, _ => by
      rw [denoteBound]
      exact rules.allows_pure _ trivial
  | some bound, henv, hcopies => by
      rw [boundCopiesNothing] at hcopies
      rw [boundLookups] at henv
      rw [denoteBound]
      exact (allows_denote hcalls bound henv hcopies).value.bind fun _ _ =>
        (rules.allows_asInt _).bind fun _ _ => rules.allows_pure _ trivial

theorem allows_denoteFields (hcalls : rules.AllowsCalls callee) (decl : IrStruct)
    {aggregate : Value} :
    (fields : List (Name × IrExpr)) → env.Inside rules.region (fieldsLookups fields) →
      rules.Permits (fieldsCopyNothing fields) → aggregate.Inside rules.region →
      rules.Allows (denoteFields structs callee env decl aggregate fields)
        (Value.Inside rules.region)
  | [], _, _, haggregate => by
      rw [denoteFields]
      exact rules.allows_pure _ haggregate
  | (_, value) :: rest, henv, hcopies, haggregate => by
      rw [fieldsCopyNothing, permits_and] at hcopies
      rw [fieldsLookups, Env.inside_append] at henv
      rw [denoteFields]
      exact (rules.allows_ofOption fun _ _ => trivial).bind fun _ _ =>
        (allows_denote hcalls value henv.1 hcopies.1).value.bind fun _ hvalue =>
          (rules.allows_ofOption fun _ hset => Value.inside_set? hvalue _ haggregate hset).bind
            fun _ hchanged => allows_denoteFields hcalls decl rest henv.2 hcopies.2
              hchanged

end

end

end ExprRules

/-! Statements and calls. -/

def Env.AllInside (env : Env) (region : Region) : Prop :=
  ∀ names, env.Inside region names

theorem Env.AllInside.push {env : Env} {region : Region} (henv : env.AllInside region) :
    env.push.AllInside region := by
  intro names name hname found hfound
  exact henv names name hname found (Env.find?_push ▸ hfound)

theorem Env.AllInside.define {env : Env} {region : Region} {name : Name} {cell : Nat}
    (henv : env.AllInside region) (hcell : region.cell cell) :
    (env.define name cell).AllInside region := by
  intro names other hother found hfound
  rcases Env.find?_define hfound with hsame | hold
  · rw [hsame]
    exact hcell
  · exact henv names other hother found hold

/-- What a statement hands on: a scope of the region, and a returned value of the region. -/
def Flow.Inside (region : Region) : Flow → Prop
  | .returned (some value) => value.Inside region
  | .returned none | .next => True

namespace StmtRules

variable (rules : StmtRules ω)

theorem allows_evalCall {callee : Callee ω} (hcallee : rules.AllowsCallee callee) :
    rules.AllowsCalls callee := by
  intro target moduleName functionName arguments harguments
  unfold evalCall
  refine .ite ?_ ((rules.allows_log _).bind fun _ _ => hcallee _ _ _ _ harguments)
  split
  · next zone =>
      rw [Value.itemsInside_iff] at harguments
      exact (rules.allows_releaseZone (harguments zone List.mem_cons_self)).bind fun _ _ =>
        rules.allows_pure _ (by simp [Value.Inside])
  · exact rules.allows_undefined

theorem allows_iterate {body : Eval ω (Option Flow)} {P : Flow → Prop}
    (hbody : rules.Allows body fun round => ∀ flow, round = some flow → P flow) (fuel : Nat) :
    rules.Allows (iterate body fuel) P := by
  induction fuel with
  | zero => exact rules.allows_throw _
  | succ fuel ih =>
      refine hbody.bind fun round hround => ?_
      cases round with
      | none => exact ih
      | some flow => exact rules.allows_pure _ (hround flow rfl)

section

variable {structs : StructTable} {callee : Callee ω} {fuel : Nat}

theorem allows_value (hcallee : rules.AllowsCallee callee) (expression : IrExpr) {env : Env}
    (henv : env.AllInside rules.region) :
    rules.Allows (denote structs callee env expression).value (Value.Inside rules.region) :=
  (rules.allows_denote (rules.allows_evalCall hcallee) expression (henv _)
    (.inl rules.copies_eq)).value

theorem allows_place (hcallee : rules.AllowsCallee callee) (expression : IrExpr) {env : Env}
    (henv : env.AllInside rules.region) :
    rules.Allows (denote structs callee env expression).place
      fun place => rules.region.cell place.cell :=
  (rules.allows_denote (rules.allows_evalCall hcallee) expression (henv _)
    (.inl rules.copies_eq)).place (.inl rules.copies_eq)

theorem allows_push {value : Value} (hvalue : value.Inside rules.region) :
    rules.Allows (Eval.allocate .stack value) fun place => rules.region.cell place.cell :=
  rules.allows_allocate (fun _ => rules.copies_eq) hvalue

/-- A round of a loop that goes on hands nothing on. -/
theorem again_inside {region : Region} {flow : Flow} (hflow : flow.Inside region) :
    ∀ found, flow.again = some found → found.Inside region := by
  intro found hfound
  cases flow with
  | next => cases hfound
  | returned value =>
      obtain rfl := Option.some.inj hfound
      exact hflow

theorem done_inside {region : Region} :
    ∀ found, some Flow.next = some found → found.Inside region := by
  intro found hfound
  obtain rfl := Option.some.inj hfound
  trivial

mutual

theorem allows_execStmt (hcallee : rules.AllowsCallee callee) : (statement : IrStmt) →
    ∀ env : Env, env.AllInside rules.region →
      rules.Allows (execStmt structs callee fuel env statement)
        fun result => result.1.AllInside rules.region ∧ result.2.Inside rules.region
  | .letStmt _ _ _ initializer, env, henv => by
      rw [execStmt]
      exact (rules.allows_value hcallee initializer henv).bind
        fun _ hvalue => (rules.allows_push hvalue).bind fun _ hnear =>
          rules.allows_pure _ ⟨henv.define hnear, trivial⟩
  | .assign target value, env, henv => by
      have hstored : rules.Allows (denote structs callee env value).value _ :=
        (rules.allows_value hcallee value henv)
      rw [execStmt]
      split
      · exact (rules.allows_place hcallee target henv).bind
          fun _ hnear => hstored.bind fun _ hvalue => (rules.allows_store hnear hvalue).bind
            fun _ _ => rules.allows_pure _ ⟨henv, trivial⟩
      · exact (rules.allows_undefined (P := fun _ => False)).bind fun _ hfalse => hfalse.elim
  | .returnStmt value, env, henv => by
      rw [execStmt]
      cases value with
      | none => exact rules.allows_pure (env, Flow.returned none) ⟨henv, trivial⟩
      | some value =>
          have hresult : rules.Allows (returnValue structs callee env (some value))
              fun result => Flow.Inside rules.region (.returned result) :=
            (rules.allows_value hcallee value henv).bind
              fun _ hvalue => rules.allows_pure _ hvalue
          exact hresult.bind fun _ hinside => rules.allows_pure _ ⟨henv, hinside⟩
  | .expr value, env, henv => by
      rw [execStmt]
      exact (rules.allows_value hcallee value henv).bind
        fun _ _ => rules.allows_pure _ ⟨henv, trivial⟩
  | .zone _ body, env, henv => by
      rw [execStmt]
      exact rules.allows_enterZone.bind fun handle hhandle =>
        (rules.allows_push (show (Value.zone handle).Inside _ from hhandle)).bind fun _ hnear =>
          (allows_execStmts hcallee body _ (henv.push.define hnear).push).bind fun _ hflow =>
            rules.allows_pure _ ⟨henv, hflow⟩
  | .ifStmt condition thenBlock elseBlock, env, henv => by
      rw [execStmt]
      refine (rules.allows_value hcallee condition henv).bind
        fun _ _ => (rules.allows_asBool _).bind fun test _ => ?_
      cases test with
      | true =>
          exact (allows_execStmts hcallee thenBlock _ henv.push).bind fun _ hflow =>
            rules.allows_pure _ ⟨henv, hflow⟩
      | false =>
          exact (allows_execElse hcallee elseBlock _ henv).bind fun _ hflow =>
            rules.allows_pure _ ⟨henv, hflow⟩
  | .whileStmt condition body, env, henv => by
      rw [execStmt]
      refine (rules.allows_iterate ?_ fuel).bind fun _ hflow => rules.allows_pure _ ⟨henv, hflow⟩
      exact (rules.allows_value hcallee condition henv).bind
        fun _ _ => (rules.allows_asBool _).bind fun _ _ => .ite
          ((allows_execStmts hcallee body _ henv.push).bind fun _ hflow =>
            rules.allows_pure _ (again_inside hflow))
          (rules.allows_pure _ (done_inside))
  | .loop body, env, henv => by
      rw [execStmt]
      refine (rules.allows_iterate ?_ fuel).bind fun _ hflow => rules.allows_pure _ ⟨henv, hflow⟩
      exact (allows_execStmts hcallee body _ henv.push).bind fun _ hflow =>
        rules.allows_pure _ (again_inside hflow)
  | .forStmt _ _ start stop body, env, henv => by
      rw [execStmt]
      refine (rules.allows_value hcallee start henv).bind
        fun _ hfirst => (rules.allows_value hcallee stop henv).bind
          fun _ _ => (rules.allows_asInt _).bind fun _ _ =>
            (rules.allows_push hfirst).bind fun _ hcounter =>
              (rules.allows_iterate ?_ fuel).bind fun _ hflow => rules.allows_pure _ ⟨henv, hflow⟩
      refine (rules.allows_load hcounter).bind fun _ _ => (rules.allows_asInt _).bind fun _ _ =>
        .ite ((allows_execStmts hcallee body _ (henv.push.define hcounter).push).bind
          fun flow hflow => ?_) (rules.allows_pure _ (done_inside))
      cases flow with
      | next =>
          exact (rules.allows_load hcounter).bind fun _ _ => (rules.allows_asInt _).bind fun _ _ =>
            (rules.allows_store hcounter (by simp [Value.Inside])).bind fun _ _ =>
              rules.allows_pure _ nofun
      | returned value => exact rules.allows_pure _ (again_inside hflow)
  | .free value, env, henv => by
      rw [execStmt]
      exact (rules.allows_value hcallee value henv).bind
        fun _ hvalue => (rules.allows_free hvalue).bind fun _ _ =>
          rules.allows_pure _ ⟨henv, trivial⟩

theorem allows_execElse (hcallee : rules.AllowsCallee callee) : (block : Option (List IrStmt)) →
    ∀ env : Env, env.AllInside rules.region →
      rules.Allows (execElse structs callee fuel env block) (Flow.Inside rules.region)
  | none, env, _ => by
      rw [execElse]
      exact rules.allows_pure _ trivial
  | some block, env, henv => by
      rw [execElse]
      exact allows_execStmts hcallee block _ henv.push

theorem allows_execStmts (hcallee : rules.AllowsCallee callee) : (block : List IrStmt) →
    ∀ env : Env, env.AllInside rules.region →
      rules.Allows (execStmts structs callee fuel env block) (Flow.Inside rules.region)
  | [], env, _ => by
      rw [execStmts]
      exact rules.allows_pure _ trivial
  | statement :: rest, env, henv => by
      rw [execStmts]
      refine (allows_execStmt hcallee statement env henv).bind fun result hresult => ?_
      obtain ⟨later, flow⟩ := result
      cases flow with
      | next => exact allows_execStmts hcallee rest later hresult.1
      | returned value => exact rules.allows_pure _ hresult.2

end

theorem allows_bindArguments (params : List Param) :
    ∀ {env : Env} {arguments : List Value}, env.AllInside rules.region →
      Value.ItemsInside rules.region arguments →
      rules.Allows (bindArguments env params arguments : Eval ω Env)
        fun bound => bound.AllInside rules.region := by
  induction params with
  | nil =>
      intro env arguments henv _
      cases arguments with
      | nil => exact rules.allows_pure _ henv
      | cons argument rest => exact rules.allows_undefined
  | cons param params ih =>
      intro env arguments henv harguments
      cases arguments with
      | nil => exact rules.allows_undefined
      | cons argument rest =>
          rw [Value.ItemsInside] at harguments
          exact (rules.allows_push harguments.1).bind fun _ hnear =>
            ih (henv.define hnear) harguments.2

end

theorem allows_fallOff (returnType : TypeRef) {flow : Flow} (hflow : flow.Inside rules.region) :
    rules.Allows (fallOff returnType flow : Eval ω Value) (Value.Inside rules.region) := by
  cases flow with
  | next =>
      exact .ite (rules.allows_pure _ (by simp [Value.Inside])) rules.allows_undefined
  | returned value =>
      cases value with
      | none => exact rules.allows_pure _ (by simp [Value.Inside])
      | some value => exact rules.allows_pure _ hflow

theorem allInside_empty (region : Region) : Env.AllInside (Env.push []) region := by
  intro names name _ found hfound
  cases hfound

theorem allows_callFunction {structs : StructTable} {callee : Callee ω}
    (hcallee : rules.AllowsCallee callee) (fuel : Nat) (function : IrFunction)
    {arguments : List Value} (harguments : Value.ItemsInside rules.region arguments) :
    rules.Allows (callFunction structs callee fuel function arguments)
      (Value.Inside rules.region) := by
  have hbody : rules.Allows (do
      let env ← bindArguments (Env.push []) function.parameters arguments
      let flow ← execStmts structs callee fuel env function.body
      fallOff function.returnType flow) (Value.Inside rules.region) :=
    (rules.allows_bindArguments function.parameters (allInside_empty _) harguments).bind
      fun _ henv => (rules.allows_execStmts hcallee function.body _ henv).bind
        fun _ hflow => rules.allows_fallOff function.returnType hflow
  have hframed := rules.allows_activation hbody
  simpa only [callFunction, bind_assoc] using hframed

theorem allows_runCall {program : IrProgram} {runtime : Callee ω}
    (hruntime : rules.AllowsCallee runtime) (fuel : Nat) :
    rules.AllowsCallee (runCall program runtime fuel) := by
  induction fuel with
  | zero =>
      intro target moduleName functionName arguments _
      exact rules.allows_throw _
  | succ fuel ih =>
      intro target moduleName functionName arguments harguments
      cases target with
      | builtin => exact hruntime _ _ _ _ harguments
      | «local» | module =>
          exact (rules.allows_ofOption fun _ _ => trivial).bind fun function _ =>
            rules.allows_callFunction ih fuel function harguments

end StmtRules

end Semantics

end Cnegative
