import Cnegative.Backend.Strings
import Cnegative.Backend.Validate
import Cnegative.Typing.Ir

namespace Cnegative

open Library (Code Chain Frame Ranks exists_ranks_lt)

open Typing (TypeEnv exprTyped)

namespace Llvm

/-! Emitters that go through, or report an error. -/

/-- The emitter ends with a result as `post` says just if `fits`, wherever it starts. -/
def Succeeds {α : Type} (fits : Prop) (emitter : Emit α) (post : α → Prop) : Prop :=
  ∀ state, (fits → ∃ a code after, emitter state = some (a, code, after) ∧ post a) ∧
    (¬ fits → emitter state = none)

namespace Succeeds

variable {α β : Type} {fits more : Prop} {post middle : α → Prop} {last : β → Prop}

theorem pure {a : α} (hpost : post a) : Succeeds True (pure a) post :=
  fun state => ⟨fun _ => ⟨a, [], state, rfl, hpost⟩, fun hfalse => absurd trivial hfalse⟩

theorem fail : Succeeds False (Emit.fail : Emit α) post :=
  fun _ => ⟨fun hfalse => hfalse.elim, fun _ => rfl⟩

theorem of_iff {emitter : Emit α} (hiff : more ↔ fits) (hsucceeds : Succeeds fits emitter post) :
    Succeeds more emitter post :=
  fun state => ⟨fun hmore => (hsucceeds state).1 (hiff.mp hmore),
    fun hmore => (hsucceeds state).2 fun hfits => hmore (hiff.mpr hfits)⟩

theorem weaken {emitter : Emit α} (hsucceeds : Succeeds fits emitter middle)
    (hweaken : ∀ a, middle a → post a) : Succeeds fits emitter post := by
  intro state
  refine ⟨fun hfits => ?_, (hsucceeds state).2⟩
  obtain ⟨a, code, after, hrun, ha⟩ := (hsucceeds state).1 hfits
  exact ⟨a, code, after, hrun, hweaken a ha⟩

theorem bind {first : Emit α} {next : α → Emit β} (hfirst : Succeeds fits first middle)
    (hnext : ∀ a, middle a → Succeeds more (next a) last) :
    Succeeds (fits ∧ more) (first >>= next) last := by
  intro state
  by_cases hfits : fits
  · obtain ⟨a, before, reached, hrun, ha⟩ := (hfirst state).1 hfits
    refine ⟨fun hboth => ?_, fun hnot => ?_⟩
    · obtain ⟨b, behind, after, hrest, hb⟩ := (hnext a ha reached).1 hboth.2
      exact ⟨b, before ++ behind, after,
        Emit.bind_eq_some.mpr ⟨a, before, reached, behind, hrun, hrest, rfl⟩, hb⟩
    · have hrest := (hnext a ha reached).2 fun hmore => hnot ⟨hfits, hmore⟩
      change (first state).bind _ = none
      rw [hrun]
      change (next a reached).bind _ = none
      rw [hrest]
      rfl
  · refine ⟨fun hboth => absurd hboth.1 hfits, fun _ => ?_⟩
    change (first state).bind _ = none
    rw [(hfirst state).2 hfits]
    rfl

/-- A first step that always goes through. -/
theorem step {first : Emit α} {next : α → Emit β} (hfirst : Succeeds True first middle)
    (hnext : ∀ a, middle a → Succeeds more (next a) last) : Succeeds more (first >>= next) last :=
  of_iff (true_and more).symm.to_iff (bind hfirst hnext)

/-- Steps behind the first one that always go through. -/
theorem andThen {first : Emit α} {next : α → Emit β} (hfirst : Succeeds fits first middle)
    (hnext : ∀ a, middle a → Succeeds True (next a) last) : Succeeds fits (first >>= next) last :=
  of_iff (and_true fits).symm.to_iff (bind hfirst hnext)

theorem ofOption {option : Option α} {a : α} (hsome : option = some a) :
    Succeeds True (Emit.ofOption option) (· = a) := by
  subst hsome
  exact pure rfl

/-! The instructions. -/

theorem write (inst : Inst) : Succeeds True (Emit.write inst) fun _ => True :=
  fun state => ⟨fun _ => ⟨(), _, state, rfl, trivial⟩, fun hfalse => absurd trivial hfalse⟩

theorem terminate (inst : Inst) : Succeeds True (Emit.terminate inst) fun _ => True :=
  fun _ => ⟨fun _ => ⟨(), _, _, rfl, trivial⟩, fun hfalse => absurd trivial hfalse⟩

theorem label (id : Nat) : Succeeds True (Emit.label id) fun _ => True :=
  fun _ => ⟨fun _ => ⟨(), _, _, rfl, trivial⟩, fun hfalse => absurd trivial hfalse⟩

theorem nextLabel : Succeeds True Emit.nextLabel fun _ => True :=
  fun _ => ⟨fun _ => ⟨_, _, _, rfl, trivial⟩, fun hfalse => absurd trivial hfalse⟩

theorem isTerminated : Succeeds True Emit.isTerminated fun _ => True :=
  fun _ => ⟨fun _ => ⟨_, _, _, rfl, trivial⟩, fun hfalse => absurd trivial hfalse⟩

theorem result (inst : Nat → Inst) : Succeeds True (Emit.result inst) fun _ => True :=
  fun _ => ⟨fun _ => ⟨_, _, _, rfl, trivial⟩, fun hfalse => absurd trivial hfalse⟩

theorem register {type : TypeRef} (inst : Nat → Inst) :
    Succeeds True (do return LlvmValue.register type (← Emit.result inst))
      fun value => value.type = type :=
  step (result inst) fun _ _ => pure rfl

theorem emitLoad (type : TypeRef) (pointer : Pointer) :
    Succeeds True (Llvm.emitLoad type pointer) fun value => value.type = type :=
  register _

theorem emitExtractvalue (aggregate : LlvmValue) (type : TypeRef) (index : Nat) :
    Succeeds True (Llvm.emitExtractvalue aggregate type index) fun value => value.type = type :=
  register _

theorem emitBoolAnd (left right : LlvmValue) :
    Succeeds True (Llvm.emitBoolAnd left right) fun value => value.type = .bool :=
  register _

theorem emitBoolNot (value : LlvmValue) :
    Succeeds True (Llvm.emitBoolNot value) fun result => result.type = .bool := by
  unfold Llvm.emitBoolNot
  split
  · exact pure rfl
  · exact register _

theorem emitIntSub (left right : LlvmValue) :
    Succeeds True (Llvm.emitIntSub left right) fun value => value.type = .int := by
  unfold Llvm.emitIntSub
  split
  · exact pure rfl
  · exact register _

theorem emitSlice (type : TypeRef) (dataPtr length : LlvmValue) :
    Succeeds True (Llvm.emitSlice type dataPtr length) fun value => value.type = type :=
  step (result _) fun _ _ => register _

theorem emitSizeof (type : TypeRef) : Succeeds True (Llvm.emitSizeof type) fun _ => True :=
  step (result _) fun _ _ => step (result _) fun _ _ => pure trivial

theorem emitCall (type : TypeRef) (symbol : Symbol) (arguments : List LlvmValue) :
    Succeeds True (Llvm.emitCall type symbol arguments) fun value => value.type = type := by
  unfold Llvm.emitCall
  split
  · exact step (write _) fun _ _ => pure rfl
  · exact register _

theorem emitRet (value : LlvmValue) : Succeeds True (Llvm.emitRet value) fun _ => True := by
  unfold Llvm.emitRet
  split
  · exact terminate _
  · exact terminate _

theorem emitBrIfOpen (target : Nat) : Succeeds True (Llvm.emitBrIfOpen target) fun _ => True := by
  refine step isTerminated fun flag _ => ?_
  cases flag with
  | true => exact pure trivial
  | false => exact terminate _

theorem beginUnreachableBlockIfNeeded :
    Succeeds True Llvm.beginUnreachableBlockIfNeeded fun _ => True := by
  refine step isTerminated fun flag _ => ?_
  cases flag with
  | true => exact step nextLabel fun _ _ => label _
  | false => exact pure trivial

/-! Both operands of a branching expression. -/

theorem lowerShortCircuit {type : TypeRef} {left right : Emit LlvmValue} {isAnd : Bool}
    {first second : LlvmValue → Prop} (hleft : Succeeds fits left first)
    (hright : Succeeds more right second) :
    Succeeds (fits ∧ more) (Llvm.lowerShortCircuit type left right isAnd)
      fun value => value.type = type := by
  refine step (result _) fun _ _ => step nextLabel fun _ _ => step nextLabel fun _ _ => ?_
  refine step nextLabel fun _ _ => bind hleft fun _ _ => step (terminate _) fun _ _ => ?_
  refine step (label _) fun _ _ => andThen hright fun _ _ => step (write _) fun _ _ => ?_
  refine step (terminate _) fun _ _ => step (label _) fun _ _ => step (write _) fun _ _ => ?_
  exact step (terminate _) fun _ _ => step (label _) fun _ _ => emitLoad _ _

theorem lowerIfExpression {type : TypeRef} {condition thenExpr elseExpr : Emit LlvmValue}
    {p q r : Prop} {test first second : LlvmValue → Prop} (hcondition : Succeeds p condition test)
    (hthen : Succeeds q thenExpr first) (helse : Succeeds r elseExpr second) :
    Succeeds (p ∧ q ∧ r) (Llvm.lowerIfExpression type condition thenExpr elseExpr)
      fun value => value.type = type := by
  refine step (result _) fun _ _ => step nextLabel fun _ _ => step nextLabel fun _ _ => ?_
  refine step nextLabel fun _ _ => bind hcondition fun _ _ => step (terminate _) fun _ _ => ?_
  refine step (label _) fun _ _ => bind hthen fun _ _ => step (write _) fun _ _ => ?_
  refine step (terminate _) fun _ _ => step (label _) fun _ _ => andThen helse fun _ _ => ?_
  refine step (write _) fun _ _ => step (terminate _) fun _ _ => step (label _) fun _ _ => ?_
  exact emitLoad _ _

/-! Equality. -/

theorem emitAllEqual {items : List (Emit LlvmValue)}
    (hitems : ∀ item ∈ items, Succeeds True item fun value => value.type = .bool) :
    Succeeds True (Llvm.emitAllEqual items) fun value => value.type = .bool := by
  unfold Llvm.emitAllEqual
  have hinitial : (constantBool true).type = .bool := rfl
  generalize constantBool true = initial at hinitial ⊢
  induction items generalizing initial with
  | nil => exact pure hinitial
  | cons item rest ih =>
      rw [List.foldlM_cons]
      have hrest := ih fun other hother => hitems other (List.mem_cons_of_mem _ hother)
      refine step (step (hitems item List.mem_cons_self) fun itemEq hitemEq => ?_) hrest
      split
      · exact pure hitemEq
      · exact emitBoolAnd _ _

theorem emitMemberEquality {left right : LlvmValue} {type : TypeRef} {index : Nat}
    {equality : LlvmValue → LlvmValue → Emit LlvmValue}
    (hequality : ∀ first second, Succeeds True (equality first second)
      fun value => value.type = .bool) :
    Succeeds True (Llvm.emitMemberEquality left right type index equality)
      fun value => value.type = .bool :=
  step (emitExtractvalue _ _ _) fun _ _ => step (emitExtractvalue _ _ _) fun _ _ =>
    hequality _ _

theorem emitScalarEquality (left right : LlvmValue) :
    Succeeds True (Llvm.emitScalarEquality left right) fun value => value.type = .bool :=
  register _

end Succeeds

/-- The comparison of a type goes through where that of the structs inside does. -/
theorem emitEqualityWith_succeeds {structs : StructTable}
    {onStruct : Name → Name → LlvmValue → LlvmValue → Emit LlvmValue} {type : TypeRef}
    (hcomparable : Comparable structs type)
    (honStruct : ∀ moduleName name, comparedLeaf type = .named moduleName name →
      ∀ left right, Succeeds True (onStruct moduleName name left right)
        fun value => value.type = .bool) :
    ∀ left right, Succeeds True (emitEqualityWith onStruct type left right)
      fun value => value.type = .bool := by
  induction type with
  | int | u8 | bool | ptr | null => exact fun left right => .emitScalarEquality left right
  | str => exact fun left right => .step (.result _) fun _ _ => .register _
  | slice inner _ =>
      intro left right
      refine .step (.emitMemberEquality .emitScalarEquality) fun _ _ => ?_
      exact .step (.emitMemberEquality .emitScalarEquality) fun _ _ => .emitBoolAnd _ _
  | result inner ih =>
      cases hcomparable with
      | result hinner =>
          intro left right
          refine .step (.emitMemberEquality .emitScalarEquality) fun _ _ => ?_
          exact .step (.emitMemberEquality (ih hinner honStruct)) fun _ _ => .emitBoolAnd _ _
  | array inner size ih =>
      cases hcomparable with
      | array hinner =>
          intro left right
          refine .emitAllEqual fun item hitem => ?_
          obtain ⟨index, -, rfl⟩ := List.mem_map.mp hitem
          exact .emitMemberEquality (ih hinner honStruct)
  | named moduleName name => exact honStruct moduleName name rfl
  | void => cases hcomparable
  | unknown => cases hcomparable

/-! How deep the comparison of a struct goes: no struct stands below itself. -/

section Depth

variable (structs : StructTable)

def declaredNames : List StructName :=
  structs.flatMap fun entry => entry.2.map fun decl => (entry.1, decl.name)

theorem length_declaredNames : (declaredNames structs).length = Value.structDepth structs := by
  unfold declaredNames Value.structDepth
  rw [List.length_flatMap, List.length_flatMap]
  congr 1
  refine List.map_congr_left fun entry _ => ?_
  rw [List.length_map]

variable {structs}

theorem mem_declaredNames {name : StructName} {decl : IrStruct}
    (hdecl : structs.find name.1 name.2 = some decl) : name ∈ declaredNames structs := by
  obtain ⟨entry, hentry, hfind⟩ := List.exists_of_findSome?_eq_some hdecl
  obtain ⟨hmem, hmodule⟩ := List.mem_filter.mp hentry
  refine List.mem_flatMap.mpr ⟨entry, hmem, List.mem_map.mpr ⟨decl, ?_, ?_⟩⟩
  · exact List.mem_of_find?_eq_some hfind
  · have hname : (decl.name == name.2) = true := by simpa using List.find?_some hfind
    rw [eq_of_beq hmodule, eq_of_beq hname]

/-- `outer` can be compared, and compares `inner`. -/
def Below (structs : StructTable) (outer inner : StructName) : Prop :=
  Comparable structs (.named outer.1 outer.2) ∧ Compares structs outer inner

theorem Comparable.leaf {type : TypeRef} (hcomparable : Comparable structs type) :
    Comparable structs (comparedLeaf type) := by
  induction hcomparable with
  | slice _ ih => exact ih
  | result _ ih => exact ih
  | array _ ih => exact ih
  | named hdecl hfields => exact .named hdecl hfields
  | int => exact .int
  | u8 => exact .u8
  | bool => exact .bool
  | str => exact .str
  | null => exact .null
  | ptr => exact .ptr

theorem Below.comparable {outer inner : StructName} (hbelow : Below structs outer inner) :
    Comparable structs (.named inner.1 inner.2) := by
  obtain ⟨houter, decl, hdecl, before, field, after, hfields, -, hleaf⟩ := hbelow
  cases houter with
  | named hfound hcomparable =>
      rw [hdecl, Option.some.injEq] at hfound
      subst hfound
      rw [← hleaf]
      exact (hcomparable field (by simp [hfields])).leaf

theorem below_of_field {name inner : StructName} {decl : IrStruct} {field : StructField}
    (hdecl : structs.find name.1 name.2 = some decl)
    (hfields : ∀ field ∈ decl.fields, Comparable structs field.type)
    (hfield : field ∈ decl.fields) (hleaf : comparedLeaf field.type = .named inner.1 inner.2) :
    Below structs name inner := by
  obtain ⟨before, after, hsplit⟩ := List.append_of_mem hfield
  refine ⟨.named hdecl hfields, decl, hdecl, before, field, after, hsplit, ?_, hleaf⟩
  exact fun other hother => hfields other (by simp [hsplit, hother])

/-- A type that can be compared has a tree of parts. -/
theorem below_acc {type : TypeRef} (hcomparable : Comparable structs type) :
    ∀ name : StructName, comparedLeaf type = .named name.1 name.2 →
      Acc (fun inner outer => Below structs outer inner) name := by
  induction hcomparable with
  | slice _ ih => exact ih
  | result _ ih => exact ih
  | array _ ih => exact ih
  | @named moduleName name decl hdecl hfields ih =>
      rintro ⟨moduleName', name'⟩ hleaf
      simp only [comparedLeaf, TypeRef.named.injEq] at hleaf
      obtain ⟨rfl, rfl⟩ := hleaf
      refine ⟨_, fun inner hbelow => ?_⟩
      obtain ⟨-, decl', hdecl', before, field, after, hsplit, -, hinner⟩ := hbelow
      rw [hdecl, Option.some.injEq] at hdecl'
      subst hdecl'
      exact ih field (by simp [hsplit]) inner hinner
  | _ =>
      intro name hleaf
      cases hleaf

theorem below_acyclic (name : StructName) : ¬ Relation.TransGen (Below structs) name name := by
  intro hcycle
  obtain ⟨inner, hbelow, -⟩ := Relation.TransGen.head'_iff.mp hcycle
  exact Library.not_cycle_of_acc (below_acc hbelow.1 name rfl) hcycle

end Depth

theorem emitStructEquality_succeeds {structs : StructTable} {rank : StructName → Nat}
    (hranks : Ranks (Below structs) rank) (depth : Nat) :
    ∀ name : StructName, Comparable structs (.named name.1 name.2) → rank name < depth →
      ∀ left right, Succeeds True (emitStructEquality structs depth name.1 name.2 left right)
        fun value => value.type = .bool := by
  induction depth with
  | zero => exact fun _ _ hdepth => absurd hdepth (Nat.not_lt_zero _)
  | succ depth ih =>
      intro name hcomparable hdepth left right
      cases hcomparable with
      | @named _ _ decl hdecl hfields =>
          refine .step (.ofOption hdecl) fun found hfound => ?_
          subst hfound
          refine .emitAllEqual fun item hitem => ?_
          obtain ⟨⟨field, index⟩, hmem, rfl⟩ := List.mem_map.mp hitem
          have hfield : field ∈ found.fields := List.fst_mem_of_mem_zipIdx hmem
          refine .emitMemberEquality (emitEqualityWith_succeeds (hfields field hfield) ?_)
          intro moduleName' name' hleaf
          have hbelow : Below structs name (moduleName', name') :=
            below_of_field hdecl hfields hfield hleaf
          have hless := hranks _ _ hbelow
          exact ih (moduleName', name') hbelow.comparable (by omega)

/-- The nested structs of a program are enough for any type that can be compared. -/
theorem emitValueEquality_succeeds {structs : StructTable} {type : TypeRef}
    (hcomparable : Comparable structs type) (left right : LlvmValue) :
    Succeeds True (emitValueEquality structs left right type) fun value => value.type = .bool := by
  have hdeclared : ∀ name : StructName, Comparable structs (.named name.1 name.2) →
      name ∈ (declaredNames structs).toFinset := by
    intro name hname
    cases hname with
    | named hdecl _ => exact List.mem_toFinset.mpr (mem_declaredNames hdecl)
  obtain ⟨rank, hranks, hrank⟩ := exists_ranks_lt
    (fun _ inner hbelow => hdeclared inner (Below.comparable hbelow)) below_acyclic
  refine emitEqualityWith_succeeds hcomparable (fun moduleName name hleaf => ?_) left right
  have hinner := hcomparable.leaf
  rw [hleaf] at hinner
  have hless := hrank (moduleName, name) (hdeclared _ hinner)
  have hcard := (declaredNames structs).toFinset_card_le
  rw [length_declaredNames] at hcard
  exact emitStructEquality_succeeds hranks _ (moduleName, name) hinner (by omega)

end Llvm

end Cnegative
