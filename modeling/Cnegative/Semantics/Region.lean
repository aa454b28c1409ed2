import Cnegative.Semantics.Expr

namespace Cnegative

/-! Parts of the memory, and the values that lead to nothing else. -/

structure Region where
  cell : Nat → Prop
  zone : Nat → Prop

def Region.all : Region :=
  ⟨fun _ => True, fun _ => True⟩

namespace Value

variable {region : Region}

mutual

/-- Every pointer, owned string and zone handle in the value is of the region. -/
def Inside (region : Region) : Value → Prop
  | .ptr target => ∀ place ∈ target, region.cell place.cell
  | .str owner _ => ∀ cell ∈ owner, region.cell cell
  | .zone handle => region.zone handle
  | .aggregate items => ItemsInside region items
  | .int _ | .u8 _ | .bool _ | .void | .undef => True

def ItemsInside (region : Region) : List Value → Prop
  | [] => True
  | item :: rest => Inside region item ∧ ItemsInside region rest

end

theorem inside_ptr {place : Place} :
    (Value.ptr (some place)).Inside region ↔ region.cell place.cell := by
  simp [Inside]

theorem itemsInside_iff {items : List Value} :
    ItemsInside region items ↔ ∀ item ∈ items, item.Inside region := by
  induction items with
  | nil => simp [ItemsInside]
  | cons item rest ih => simp [ItemsInside, ih]

mutual

theorem inside_all : (value : Value) → value.Inside Region.all
  | .aggregate items => by
      rw [Inside]
      exact itemsInside_all items
  | .ptr _ | .str _ _ | .zone _ => by simp [Inside, Region.all]
  | .int _ | .u8 _ | .bool _ | .void | .undef => by simp [Inside]

theorem itemsInside_all : (items : List Value) → ItemsInside Region.all items
  | [] => by simp [ItemsInside]
  | item :: rest => by
      rw [ItemsInside]
      exact ⟨inside_all item, itemsInside_all rest⟩

end

theorem inside_item? {value item : Value} {index : Int} (hvalue : value.Inside region)
    (hitem : value.item? index = some item) : item.Inside region := by
  cases value with
  | aggregate items =>
      rw [Inside, itemsInside_iff] at hvalue
      rw [item?] at hitem
      split at hitem
      · cases hitem
      · exact hvalue item (List.mem_of_getElem? hitem)
  | _ => cases hitem

theorem inside_get? {value found : Value} {path : List Int} (hvalue : value.Inside region)
    (hfound : value.get? path = some found) : found.Inside region := by
  induction path generalizing value with
  | nil =>
      obtain rfl := Option.some.inj hfound
      exact hvalue
  | cons index rest ih =>
      obtain ⟨item, hitem, hrest⟩ := Option.bind_eq_some_iff.mp hfound
      exact ih (inside_item? hvalue hitem) hrest

theorem inside_set? {stored : Value} (hstored : stored.Inside region) (path : List Int) :
    ∀ {value changed : Value}, value.Inside region → value.set? stored path = some changed →
      changed.Inside region := by
  induction path with
  | nil =>
      intro value changed _ hset
      obtain rfl := Option.some.inj hset
      exact hstored
  | cons index rest ih =>
      intro value changed hvalue hset
      cases value with
      | aggregate items =>
          simp only [set?] at hset
          split at hset
          · cases hset
          · simp only [Option.bind_eq_bind, Option.bind_eq_some_iff, Option.pure_def,
              Option.some.injEq] at hset
            obtain ⟨item, hitem, inner, hinner, rfl⟩ := hset
            rw [Inside, itemsInside_iff] at hvalue ⊢
            intro other hother
            rcases List.mem_or_eq_of_mem_set hother with hold | rfl
            · exact hvalue other hold
            · exact ih (hvalue item (List.mem_of_getElem? hitem)) hinner
      | _ => simp [set?] at hset

theorem inside_fillWith {leaf : TypeRef → Value} {onStruct : Name → Name → Value}
    (hleaf : ∀ type, (leaf type).Inside region)
    (hstruct : ∀ moduleName name, (onStruct moduleName name).Inside region) :
    (type : TypeRef) → (fillWith leaf onStruct type).Inside region
  | .result inner => by
      have hinner := inside_fillWith hleaf hstruct inner
      simp [fillWith, Inside, ItemsInside, hleaf, hinner]
  | .slice inner => by simp [fillWith, Inside, ItemsInside, hleaf]
  | .array inner size => by
      have hinner := inside_fillWith hleaf hstruct inner
      rw [fillWith, Inside, itemsInside_iff]
      intro item hitem
      rw [List.eq_of_mem_replicate hitem]
      exact hinner
  | .named moduleName name => by
      rw [fillWith]
      exact hstruct moduleName name
  | .int | .u8 | .bool | .str | .ptr _ | .null | .void | .unknown => hleaf _

theorem inside_fillStruct {leaf : TypeRef → Value} (hleaf : ∀ type, (leaf type).Inside region)
    (structs : StructTable) (depth : Nat) (moduleName name : Name) :
    (fillStruct leaf structs depth moduleName name).Inside region := by
  induction depth generalizing moduleName name with
  | zero => simp [fillStruct, Inside]
  | succ depth ih =>
      rw [fillStruct]
      split
      · simp [Inside]
      · rw [Inside, itemsInside_iff]
        intro item hitem
        obtain ⟨field, -, rfl⟩ := List.mem_map.mp hitem
        exact inside_fillWith hleaf ih field.type

theorem inside_zero (structs : StructTable) (type : TypeRef) :
    (zero structs type).Inside region := by
  have hleaf : ∀ type, (zeroLeaf type).Inside region := by
    intro type
    cases type <;> simp [zeroLeaf, Inside]
  exact inside_fillWith hleaf (inside_fillStruct hleaf structs _) type

theorem inside_uninit (structs : StructTable) (type : TypeRef) :
    (uninit structs type).Inside region := by
  have hleaf : ∀ _ : TypeRef, Value.undef.Inside region := fun _ => by simp [Inside]
  exact inside_fillWith hleaf (inside_fillStruct hleaf structs _) type

theorem inside_ofInt (type : TypeRef) (number : BitVec 64) : (ofInt type number).Inside region := by
  unfold ofInt
  split <;> simp [Inside]

end Value

/-! The names that an expression looks up in the scope. -/

mutual

/-- The locals of an expression and the zones of its `zalloc`s. -/
def IrExpr.lookups : IrExpr → List Name
  | .local _ name | .zalloc _ _ name => [name]
  | .unary _ _ operand | .sliceFromArray _ operand | .field _ operand _ | .ok _ operand
  | .addr _ operand | .deref _ operand => operand.lookups
  | .binary _ _ left right | .index _ left right => left.lookups ++ right.lookups
  | .ifExpr _ condition thenExpr elseExpr =>
      condition.lookups ++ thenExpr.lookups ++ elseExpr.lookups
  | .call _ _ _ _ arguments => itemsLookups arguments
  | .arrayLiteral _ items => itemsLookups items
  | .sliceView _ base start stop => base.lookups ++ boundLookups start ++ boundLookups stop
  | .structLiteral _ _ _ fields => fieldsLookups fields
  | .int _ _ | .bool _ _ | .string _ _ | .null _ | .err _ | .alloc _ _ => []

def boundLookups : Option IrExpr → List Name
  | none => []
  | some bound => bound.lookups

def itemsLookups : List IrExpr → List Name
  | [] => []
  | item :: rest => item.lookups ++ itemsLookups rest

def fieldsLookups : List (Name × IrExpr) → List Name
  | [] => []
  | (_, value) :: rest => value.lookups ++ fieldsLookups rest

end

namespace Semantics

open Library (Chain)

theorem Env.find?_push {env : Env} {name : Name} :
    Chain.find? env.push name = Chain.find? env name :=
  Chain.find?_cons_empty () env name

theorem Env.find?_define {env : Env} {name other : Name} {cell : Nat}
    {found : Library.Ref Name × Nat}
    (hfound : Chain.find? (env.define name cell) other = some found) :
    found.2 = cell ∨ Chain.find? env other = some found := by
  cases env with
  | nil => cases hfound
  | cons frame outer =>
      rw [Env.define, Chain.find?_define] at hfound
      split at hfound
      · obtain rfl := Option.some.inj hfound
        exact .inl rfl
      · exact .inr hfound

def Env.Inside (env : Env) (region : Region) (names : List Name) : Prop :=
  ∀ name ∈ names, ∀ found, Chain.find? env name = some found → region.cell found.2

theorem Env.inside_append {env : Env} {region : Region} {first second : List Name} :
    env.Inside region (first ++ second) ↔
      env.Inside region first ∧ env.Inside region second :=
  List.forall_mem_append

end Semantics

end Cnegative
