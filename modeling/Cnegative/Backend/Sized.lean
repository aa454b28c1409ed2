import Cnegative.Library.Rank
import Cnegative.Lower.Project
import Cnegative.Check.Accepted

namespace Cnegative

open Library (Ranks exists_ranks allInOrder allInOrder_mono of_allInOrder_true allInOrder_asks)

namespace Llvm

/-! The recursions of the backend over the types of a program.  The backend bounds none
of them, so `fuel` counts nested calls. -/

def supportsEquality (structs : StructTable) : Nat → TypeRef → Option Bool
  | 0, _ => none
  | fuel + 1, type =>
      match type with
      | .int | .u8 | .bool | .ptr _ | .null | .str => some true
      | .result inner | .slice inner | .array inner _ => supportsEquality structs fuel inner
      | .named moduleName name =>
          match structs.find moduleName name with
          | none => some false
          | some decl =>
              allInOrder (decl.fields.map fun field => supportsEquality structs fuel field.type)
      | .void | .unknown => some false

/-- The recursion of `cn_llvm_emit_value_equality`; the answer is `is_valid` of the value
it returns. -/
def emitsValueEquality (structs : StructTable) : Nat → TypeRef → Option Bool
  | 0, _ => none
  | fuel + 1, type =>
      match type with
      | .int | .u8 | .bool | .ptr _ | .null | .str | .slice _ => some true
      | .result inner => emitsValueEquality structs fuel inner
      | .array inner size =>
          allInOrder (List.replicate size (emitsValueEquality structs fuel inner))
      | .named moduleName name =>
          match structs.find moduleName name with
          | none => some false
          | some decl =>
              allInOrder (decl.fields.map fun field => emitsValueEquality structs fuel field.type)
      | .void | .unknown => some false

/-- The LLVM types of known size that `cn_llvm_emit_type` can write. -/
inductive Sized (structs : StructTable) : TypeRef → Prop where
  | int : Sized structs .int
  | u8 : Sized structs .u8
  | bool : Sized structs .bool
  | str : Sized structs .str
  | null : Sized structs .null
  | ptr {inner : TypeRef} : Sized structs (.ptr inner)
  | slice {inner : TypeRef} : Sized structs (.slice inner)
  | result {inner : TypeRef} (hinner : Sized structs inner) : Sized structs (.result inner)
  | array {inner : TypeRef} {size : Nat} (hinner : Sized structs inner) :
      Sized structs (.array inner size)
  | named {moduleName name : Name} {decl : IrStruct}
      (hdecl : structs.find moduleName name = some decl)
      (hfields : ∀ field ∈ decl.fields, Sized structs field.type) :
      Sized structs (.named moduleName name)

/-! The structs inside a type. -/

def valueLeaf : TypeRef → TypeRef
  | .result inner | .array inner _ => valueLeaf inner
  | type => type

def comparedLeaf : TypeRef → TypeRef
  | .result inner | .array inner _ | .slice inner => comparedLeaf inner
  | type => type

abbrev StructName := Name × Name

/-- `outer` has a field that holds `inner` by value. -/
def HoldsByValue (structs : StructTable) (outer inner : StructName) : Prop :=
  ∃ decl, structs.find outer.1 outer.2 = some decl ∧
    ∃ field ∈ decl.fields, valueLeaf field.type = .named inner.1 inner.2

inductive Comparable (structs : StructTable) : TypeRef → Prop where
  | int : Comparable structs .int
  | u8 : Comparable structs .u8
  | bool : Comparable structs .bool
  | str : Comparable structs .str
  | null : Comparable structs .null
  | ptr {inner : TypeRef} : Comparable structs (.ptr inner)
  | slice {inner : TypeRef} (hinner : Comparable structs inner) : Comparable structs (.slice inner)
  | result {inner : TypeRef} (hinner : Comparable structs inner) :
      Comparable structs (.result inner)
  | array {inner : TypeRef} {size : Nat} (hinner : Comparable structs inner) :
      Comparable structs (.array inner size)
  | named {moduleName name : Name} {decl : IrStruct}
      (hdecl : structs.find moduleName name = some decl)
      (hfields : ∀ field ∈ decl.fields, Comparable structs field.type) :
      Comparable structs (.named moduleName name)

/-- `outer` has a field that compares `inner`, behind fields that can be compared. -/
def Compares (structs : StructTable) (outer inner : StructName) : Prop :=
  ∃ decl, structs.find outer.1 outer.2 = some decl ∧
    ∃ before field after, decl.fields = before ++ field :: after ∧
      (∀ other ∈ before, Comparable structs other.type) ∧
      comparedLeaf field.type = .named inner.1 inner.2

structure TypesWellFounded (structs : StructTable) : Prop where
  acyclic : ∀ name, ¬ Relation.TransGen (HoldsByValue structs) name name
  supports : ∀ type, ∃ fuel, supportsEquality structs fuel type ≠ none
  equality : ∀ type, ∃ fuel, emitsValueEquality structs fuel type ≠ none
  sized : ∀ name : StructName, (structs.find name.1 name.2).isSome →
    Sized structs (.named name.1 name.2)

/-- A part of a field that has a size by itself, or is a declared struct. -/
def isSizedLeaf (structs : StructTable) : TypeRef → Bool
  | .int | .u8 | .bool | .str | .null | .ptr _ | .slice _ => true
  | .named moduleName name => (structs.find moduleName name).isSome
  | .result _ | .array _ _ | .void | .unknown => false

/-- The structs can be listed so that each holds by value only earlier ones, and so that
each compares only earlier ones. -/
structure Layered (structs : StructTable) : Prop where
  byValue : ∃ rank, Ranks (HoldsByValue structs) rank
  compared : ∃ rank, Ranks (Compares structs) rank
  leaves : ∀ (name : StructName) (decl : IrStruct), structs.find name.1 name.2 = some decl →
    ∀ field ∈ decl.fields, isSizedLeaf structs (valueLeaf field.type) = true

/-! More fuel does not change an answer. -/

variable {structs : StructTable}

theorem supportsEquality_succ (fuel : Nat) {type : TypeRef} {answer : Bool}
    (hanswer : supportsEquality structs fuel type = some answer) :
    supportsEquality structs (fuel + 1) type = some answer := by
  induction fuel generalizing type answer with
  | zero => simp [supportsEquality] at hanswer
  | succ fuel ih =>
      cases type with
      | result inner | slice inner | array inner _ => exact ih hanswer
      | named moduleName name =>
          simp only [supportsEquality] at hanswer ⊢
          cases hdecl : structs.find moduleName name with
          | none => simpa [hdecl] using hanswer
          | some decl =>
              simp only [hdecl] at hanswer ⊢
              exact allInOrder_mono (fun field _ reply hreply => ih hreply) hanswer
      | _ => exact hanswer

theorem supportsEquality_le {fuel fuel' : Nat} (hle : fuel ≤ fuel') {type : TypeRef} {answer : Bool}
    (hanswer : supportsEquality structs fuel type = some answer) :
    supportsEquality structs fuel' type = some answer := by
  induction hle with
  | refl => exact hanswer
  | step _ ih => exact supportsEquality_succ _ ih

theorem emitsValueEquality_succ (fuel : Nat) {type : TypeRef} {answer : Bool}
    (hanswer : emitsValueEquality structs fuel type = some answer) :
    emitsValueEquality structs (fuel + 1) type = some answer := by
  induction fuel generalizing type answer with
  | zero => simp [emitsValueEquality] at hanswer
  | succ fuel ih =>
      cases type with
      | result inner => exact ih hanswer
      | array inner size =>
          change allInOrder (List.replicate size (emitsValueEquality structs fuel inner)) = _
            at hanswer
          change allInOrder (List.replicate size (emitsValueEquality structs (fuel + 1) inner)) = _
          rw [← List.map_replicate (f := emitsValueEquality structs fuel)] at hanswer
          rw [← List.map_replicate (f := emitsValueEquality structs (fuel + 1))]
          exact allInOrder_mono (fun other _ reply hreply => ih hreply) hanswer
      | named moduleName name =>
          simp only [emitsValueEquality] at hanswer ⊢
          cases hdecl : structs.find moduleName name with
          | none => simpa [hdecl] using hanswer
          | some decl =>
              simp only [hdecl] at hanswer ⊢
              exact allInOrder_mono (fun field _ reply hreply => ih hreply) hanswer
      | _ => exact hanswer

theorem emitsValueEquality_le {fuel fuel' : Nat} (hle : fuel ≤ fuel') {type : TypeRef}
    {answer : Bool} (hanswer : emitsValueEquality structs fuel type = some answer) :
    emitsValueEquality structs fuel' type = some answer := by
  induction hle with
  | refl => exact hanswer
  | step _ ih => exact emitsValueEquality_succ _ ih

/-! What the recursions answer. -/

theorem comparable_of_supportsEquality (fuel : Nat) {type : TypeRef}
    (hanswer : supportsEquality structs fuel type = some true) : Comparable structs type := by
  induction fuel generalizing type with
  | zero => simp [supportsEquality] at hanswer
  | succ fuel ih =>
      cases type with
      | int => exact .int
      | u8 => exact .u8
      | bool => exact .bool
      | str => exact .str
      | null => exact .null
      | ptr inner => exact .ptr
      | result inner => exact .result (ih hanswer)
      | slice inner => exact .slice (ih hanswer)
      | array inner size => exact .array (ih hanswer)
      | named moduleName name =>
          simp only [supportsEquality] at hanswer
          cases hdecl : structs.find moduleName name with
          | none => simp [hdecl] at hanswer
          | some decl =>
              simp only [hdecl] at hanswer
              refine .named hdecl fun field hfield => ih ?_
              exact of_allInOrder_true hanswer _ (List.mem_map_of_mem hfield)
      | void => simp [supportsEquality] at hanswer
      | unknown => simp [supportsEquality] at hanswer

theorem supportsEquality_of_comparable (fuel : Nat) {type : TypeRef}
    (hcomparable : Comparable structs type) :
    supportsEquality structs fuel type = some true ∨
      supportsEquality structs fuel type = none := by
  induction fuel generalizing type with
  | zero => exact Or.inr rfl
  | succ fuel ih =>
      cases hcomparable with
      | int | u8 | bool | str | null | ptr => exact Or.inl rfl
      | slice hinner => exact ih hinner
      | result hinner => exact ih hinner
      | array hinner => exact ih hinner
      | @named moduleName name decl hdecl hfields =>
          simp only [supportsEquality, hdecl]
          generalize decl.fields = fields at hfields
          induction fields with
          | nil => exact Or.inl rfl
          | cons field rest ihRest =>
              rw [List.map_cons]
              rcases ih (hfields field (by simp)) with htrue | hnone
              · rw [htrue]
                exact ihRest fun other hother => hfields other (List.mem_cons_of_mem _ hother)
              · rw [hnone]
                exact Or.inr rfl

/-- A terminating comparison of a type has one of its leaf inside. -/
theorem supportsEquality_leaf (fuel : Nat) {type : TypeRef}
    (hends : supportsEquality structs fuel type ≠ none) :
    ∃ fuel' ≤ fuel, supportsEquality structs fuel' (comparedLeaf type) ≠ none := by
  induction type generalizing fuel with
  | result inner ih | slice inner ih | array inner _ ih =>
      cases fuel with
      | zero => exact absurd rfl hends
      | succ fuel =>
          obtain ⟨fuel', hle, hleaf⟩ := ih fuel hends
          exact ⟨fuel', by omega, hleaf⟩
  | _ => exact ⟨fuel, Nat.le_refl _, hends⟩

theorem supportsEquality_of_leaf {type : TypeRef}
    (hends : ∃ fuel, supportsEquality structs fuel (comparedLeaf type) ≠ none) :
    ∃ fuel, supportsEquality structs fuel type ≠ none := by
  induction type with
  | result inner ih | slice inner ih | array inner _ ih =>
      obtain ⟨fuel, hinner⟩ := ih hends
      exact ⟨fuel + 1, hinner⟩
  | _ => exact hends

theorem allInOrder_replicate_ne {answer : Option Bool} (hanswer : answer ≠ none) (size : Nat) :
    allInOrder (List.replicate size answer) ≠ none := by
  induction size with
  | zero => simp [allInOrder]
  | succ size ih =>
      rw [List.replicate_succ]
      cases answer with
      | none => exact absurd rfl hanswer
      | some reply =>
          cases reply with
          | true => exact ih
          | false => simp [allInOrder]

theorem emitsValueEquality_of_leaf {type : TypeRef}
    (hends : ∃ fuel, emitsValueEquality structs fuel (valueLeaf type) ≠ none) :
    ∃ fuel, emitsValueEquality structs fuel type ≠ none := by
  induction type with
  | result inner ih =>
      obtain ⟨fuel, hinner⟩ := ih hends
      exact ⟨fuel + 1, hinner⟩
  | array inner size ih =>
      obtain ⟨fuel, hinner⟩ := ih hends
      exact ⟨fuel + 1, allInOrder_replicate_ne hinner size⟩
  | _ => exact hends

theorem comparedLeaf_cases (structs : StructTable) (type : TypeRef) :
    (∃ name : StructName, comparedLeaf type = .named name.1 name.2) ∨
      supportsEquality structs 1 (comparedLeaf type) ≠ none := by
  induction type with
  | result inner ih | slice inner ih | array inner _ ih => exact ih
  | named moduleName name => exact Or.inl ⟨(moduleName, name), rfl⟩
  | _ => exact Or.inr (by simp [comparedLeaf, supportsEquality])

theorem valueLeaf_cases (structs : StructTable) (type : TypeRef) :
    (∃ name : StructName, valueLeaf type = .named name.1 name.2) ∨
      emitsValueEquality structs 1 (valueLeaf type) ≠ none := by
  induction type with
  | result inner ih | array inner _ ih => exact ih
  | named moduleName name => exact Or.inl ⟨(moduleName, name), rfl⟩
  | _ => exact Or.inr (by simp [valueLeaf, emitsValueEquality])

/-! From the lists to the recursions. -/

theorem exists_fuel_fields (ask : Nat → TypeRef → Option Bool) (yes : StructField → Prop)
    (hmono : ∀ {fuel fuel' : Nat}, fuel ≤ fuel' → ∀ {type : TypeRef} {answer : Bool},
      ask fuel type = some answer → ask fuel' type = some answer)
    (hyes : ∀ fuel (field : StructField), ask fuel field.type = some true → yes field)
    (fields : List StructField)
    (hends : ∀ before field after, fields = before ++ field :: after →
      (∀ other ∈ before, yes other) → ∃ fuel, ask fuel field.type ≠ none) :
    ∃ fuel, allInOrder (fields.map fun field => ask fuel field.type) ≠ none := by
  induction fields with
  | nil => exact ⟨0, by simp [allInOrder]⟩
  | cons field rest ih =>
      obtain ⟨fuel, hfield⟩ := hends [] field rest rfl (by simp)
      cases hanswer : ask fuel field.type with
      | none => exact absurd hanswer hfield
      | some answer =>
          cases answer with
          | false =>
              refine ⟨fuel, ?_⟩
              simp [hanswer, allInOrder]
          | true =>
              obtain ⟨fuel', hrest⟩ := ih fun before other after heq hbefore =>
                hends (field :: before) other after (by rw [heq]; rfl) fun third hthird => by
                  rcases List.mem_cons.mp hthird with rfl | hthird
                  · exact hyes fuel _ hanswer
                  · exact hbefore third hthird
              obtain ⟨reply, hreply⟩ := Option.ne_none_iff_exists'.mp hrest
              have hall := allInOrder_mono
                (fun other _ reply hother => hmono (Nat.le_max_right fuel fuel') hother) hreply
              refine ⟨max fuel fuel', ?_⟩
              rw [List.map_cons, hmono (Nat.le_max_left fuel fuel') hanswer, allInOrder, hall]
              simp

theorem supportsEquality_ends {rank : StructName → Nat} (hranks : Ranks (Compares structs) rank)
    (type : TypeRef) : ∃ fuel, supportsEquality structs fuel type ≠ none := by
  have hstruct : ∀ bound (name : StructName), rank name < bound →
      ∃ fuel, supportsEquality structs fuel (.named name.1 name.2) ≠ none := by
    intro bound
    induction bound with
    | zero => intro name hlt; omega
    | succ bound ih =>
        intro name hlt
        cases hdecl : structs.find name.1 name.2 with
        | none => exact ⟨1, by simp [supportsEquality, hdecl]⟩
        | some decl =>
            obtain ⟨fuel, hfields⟩ := exists_fuel_fields (supportsEquality structs)
              (fun field => Comparable structs field.type) supportsEquality_le
              (fun fuel field => comparable_of_supportsEquality fuel) decl.fields
              (fun before field after heq hbefore => by
                refine supportsEquality_of_leaf ?_
                rcases comparedLeaf_cases structs field.type with ⟨inner, hleaf⟩ | hends
                · have hlower := hranks name inner
                    ⟨decl, hdecl, before, field, after, heq, hbefore, hleaf⟩
                  rw [hleaf]
                  exact ih inner (by omega)
                · exact ⟨1, hends⟩)
            exact ⟨fuel + 1, by simpa only [supportsEquality, hdecl] using hfields⟩
  refine supportsEquality_of_leaf ?_
  rcases comparedLeaf_cases structs type with ⟨inner, hleaf⟩ | hends
  · rw [hleaf]
    exact hstruct _ inner (Nat.lt_succ_self _)
  · exact ⟨1, hends⟩

theorem emitsValueEquality_ends {rank : StructName → Nat}
    (hranks : Ranks (HoldsByValue structs) rank) (type : TypeRef) :
    ∃ fuel, emitsValueEquality structs fuel type ≠ none := by
  have hstruct : ∀ bound (name : StructName), rank name < bound →
      ∃ fuel, emitsValueEquality structs fuel (.named name.1 name.2) ≠ none := by
    intro bound
    induction bound with
    | zero => intro name hlt; omega
    | succ bound ih =>
        intro name hlt
        cases hdecl : structs.find name.1 name.2 with
        | none => exact ⟨1, by simp [emitsValueEquality, hdecl]⟩
        | some decl =>
            obtain ⟨fuel, hfields⟩ := exists_fuel_fields (emitsValueEquality structs)
              (fun _ => True) emitsValueEquality_le (fun _ _ _ => trivial) decl.fields
              (fun before field after heq _ => by
                refine emitsValueEquality_of_leaf ?_
                rcases valueLeaf_cases structs field.type with ⟨inner, hleaf⟩ | hends
                · have hlower := hranks name inner
                    ⟨decl, hdecl, field, by simp [heq], hleaf⟩
                  rw [hleaf]
                  exact ih inner (by omega)
                · exact ⟨1, hends⟩)
            exact ⟨fuel + 1, by simpa only [emitsValueEquality, hdecl] using hfields⟩
  refine emitsValueEquality_of_leaf ?_
  rcases valueLeaf_cases structs type with ⟨inner, hleaf⟩ | hends
  · rw [hleaf]
    exact hstruct _ inner (Nat.lt_succ_self _)
  · exact ⟨1, hends⟩

/-! Sizes. -/

theorem sized_of_leaf {type : TypeRef} (hleaf : isSizedLeaf structs (valueLeaf type) = true)
    (hstruct : ∀ name : StructName, valueLeaf type = .named name.1 name.2 →
      Sized structs (.named name.1 name.2)) : Sized structs type := by
  induction type with
  | int => exact .int
  | u8 => exact .u8
  | bool => exact .bool
  | str => exact .str
  | null => exact .null
  | ptr inner _ => exact .ptr
  | slice inner _ => exact .slice
  | result inner ih => exact .result (ih hleaf hstruct)
  | array inner _ ih => exact .array (ih hleaf hstruct)
  | named moduleName name => exact hstruct (moduleName, name) rfl
  | void => simp [valueLeaf, isSizedLeaf] at hleaf
  | unknown => simp [valueLeaf, isSizedLeaf] at hleaf

theorem leaf_of_sized {type : TypeRef} (hsized : Sized structs type) :
    isSizedLeaf structs (valueLeaf type) = true := by
  induction hsized with
  | int | u8 | bool | str | null | ptr | slice => rfl
  | result _ ih => exact ih
  | array _ ih => exact ih
  | named hdecl _ _ => simp [valueLeaf, isSizedLeaf, hdecl]

theorem sized_of_layers {rank : StructName → Nat} (hranks : Ranks (HoldsByValue structs) rank)
    (hleaves : ∀ (name : StructName) (decl : IrStruct), structs.find name.1 name.2 = some decl →
      ∀ field ∈ decl.fields, isSizedLeaf structs (valueLeaf field.type) = true) :
    ∀ bound (name : StructName), rank name < bound → (structs.find name.1 name.2).isSome →
      Sized structs (.named name.1 name.2) := by
  intro bound
  induction bound with
  | zero => intro name hlt; omega
  | succ bound ih =>
      intro name hlt hdeclared
      obtain ⟨decl, hdecl⟩ := Option.isSome_iff_exists.mp hdeclared
      refine .named hdecl fun field hfield => ?_
      have hleaf := hleaves name decl hdecl field hfield
      refine sized_of_leaf hleaf fun inner hinner => ?_
      have hlower := hranks name inner ⟨decl, hdecl, field, hfield, hinner⟩
      refine ih inner (by omega) ?_
      simpa [hinner, isSizedLeaf] using hleaf

/-! From the recursions to the lists. -/

def leafNames (structs : StructTable) (leaf : TypeRef → TypeRef) : List StructName :=
  (structs.flatMap fun entry => entry.2.flatMap fun decl => decl.fields).filterMap fun field =>
    match leaf field.type with
    | .named moduleName name => some (moduleName, name)
    | _ => none

theorem mem_leafNames {leaf : TypeRef → TypeRef} {name inner : StructName} {decl : IrStruct}
    (hdecl : structs.find name.1 name.2 = some decl) {field : StructField}
    (hfield : field ∈ decl.fields) (hleaf : leaf field.type = .named inner.1 inner.2) :
    inner ∈ leafNames structs leaf := by
  obtain ⟨entry, hentry, hfind⟩ := List.exists_of_findSome?_eq_some hdecl
  refine List.mem_filterMap.mpr ⟨field, ?_, by rw [hleaf]⟩
  refine List.mem_flatMap.mpr ⟨entry, (List.mem_filter.mp hentry).1, ?_⟩
  exact List.mem_flatMap.mpr ⟨decl, List.mem_of_find?_eq_some hfind, hfield⟩

theorem holdsByValue_finite (structs : StructTable) :
    {inner | ∃ outer, HoldsByValue structs outer inner}.Finite := by
  refine (List.finite_toSet (leafNames structs valueLeaf)).subset ?_
  rintro inner ⟨outer, decl, hdecl, field, hfield, hleaf⟩
  exact mem_leafNames hdecl hfield hleaf

theorem ranks_of_supportsEquality
    (hends : ∀ type, ∃ fuel, supportsEquality structs fuel type ≠ none) :
    ∃ rank, Ranks (Compares structs) rank := by
  refine ⟨fun name => Nat.find (hends (.named name.1 name.2)), ?_⟩
  rintro outer inner ⟨decl, hdecl, before, field, after, hfields, hbefore, hleaf⟩
  have houter := Nat.find_spec (hends (.named outer.1 outer.2))
  cases hfuel : Nat.find (hends (.named outer.1 outer.2)) with
  | zero =>
      rw [hfuel] at houter
      exact absurd rfl houter
  | succ fuel =>
      rw [hfuel] at houter
      simp only [supportsEquality, hdecl, hfields, List.map_append, List.map_cons] at houter
      have hasked := allInOrder_asks (fun answer hanswer => by
        obtain ⟨other, hother, rfl⟩ := List.mem_map.mp hanswer
        exact supportsEquality_of_comparable fuel (hbefore other hother)) houter
      obtain ⟨fuel', hle, hinner⟩ := supportsEquality_leaf fuel hasked
      rw [hleaf] at hinner
      have hleast := Nat.find_min' (hends (.named inner.1 inner.2)) hinner
      change Nat.find (hends (.named inner.1 inner.2)) < Nat.find (hends (.named outer.1 outer.2))
      omega

/-- The types of a program are well founded exactly when its structs can be listed with
what they hold and what they compare in front of them. -/
theorem typesWellFounded_iff (program : IrProgram) :
    TypesWellFounded program.structTable ↔ Layered program.structTable := by
  constructor
  · intro htypes
    refine ⟨exists_ranks (holdsByValue_finite _) htypes.acyclic,
      ranks_of_supportsEquality htypes.supports, ?_⟩
    intro name decl hdecl field hfield
    have hsized := htypes.sized name (by rw [hdecl]; rfl)
    cases hsized with
    | named hfound hfields =>
        rw [hdecl, Option.some.injEq] at hfound
        exact leaf_of_sized (hfields field (hfound ▸ hfield))
  · rintro ⟨⟨rank, hranks⟩, ⟨rank', hranks'⟩, hleaves⟩
    exact ⟨hranks.acyclic, supportsEquality_ends hranks', emitsValueEquality_ends hranks,
      fun name => sized_of_layers hranks hleaves _ name (Nat.lt_succ_self _)⟩

/-- `struct S { inner: S }` and a function that compares two of them. -/
def selfContainingProject : Project :=
  ⟨[⟨false, "main", ⟨[], [], [⟨false, "S", [⟨"inner", .named "" "S"⟩]⟩],
    [⟨false, false, "same", .bool, [⟨"a", .named "" "S"⟩, ⟨"b", .named "" "S"⟩],
        some [.returnStmt (some (.binary .equal (.name "a") (.name "b")))]⟩,
      mainFunction [.returnStmt (some (.int 0))]]⟩, []⟩]⟩

theorem selfContaining_struct_accepted :
    Check.Accepted selfContainingProject ∧
      ∃ program, Lower.lowerProject selfContainingProject = some program ∧
        ¬ TypesWellFounded program.structTable ∧
        ∀ fuel, supportsEquality program.structTable fuel (.named "main" "S") = none := by
  refine ⟨by decide, _, rfl, fun htypes => ?_, fun fuel => ?_⟩
  · exact htypes.acyclic ("main", "S") (.single ⟨_, rfl, ⟨"inner", .named "main" "S"⟩,
      .head _, rfl⟩)
  · induction fuel with
    | zero => rfl
    | succ fuel ih =>
        change allInOrder [supportsEquality _ fuel (.named "main" "S")] = none
        rw [ih]
        rfl

end Llvm

end Cnegative
