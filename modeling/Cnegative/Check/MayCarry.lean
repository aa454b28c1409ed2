import Cnegative.Encapsulation.Visible
import Cnegative.Library.PathSearch
import Cnegative.Semantics.Value

namespace Cnegative

namespace Check

open Checker (Resolved resolveCanonicalNamedStruct resolveCanonicalNamedModule resolveSourceNamedStruct
  resolveStructInModule)
open Library (pathSearch goal_of_pathSearch)

/-! `cn_type_may_carry_zone_value` as a search through the structs that a type holds by value. -/

/-- The struct that a value of the type has inside, behind arrays and results. -/
def Context.structAt (ctx : Context) : TypeRef → Option (Resolved StructDecl)
  | .result inner | .array inner _ => ctx.structAt inner
  | .named qualifier name => resolveCanonicalNamedStruct ctx.project ctx.self qualifier name
  | _ => none

/-- The answer yes that needs no look into a struct. -/
def Context.carriesHere (ctx : Context) (type : TypeRef) : Bool :=
  mayCarryWith (fun qualifier name =>
    (resolveCanonicalNamedStruct ctx.project ctx.self qualifier name).isNone) type

def Context.fieldTypes (ctx : Context) (owner : Resolved StructDecl) : List TypeRef :=
  owner.2.fields.map fun field => canonType ctx.project owner.1 field.type

def Context.fieldCarries (ctx : Context) (owner : Resolved StructDecl) : Bool :=
  (ctx.fieldTypes owner).any ctx.carriesHere

def Context.fieldStructs (ctx : Context) (owner : Resolved StructDecl) :
    List (Resolved StructDecl) :=
  (ctx.fieldTypes owner).filterMap ctx.structAt

/-- What `module_stack` and `name_stack` keep of a struct. -/
def Context.stackEntry (ctx : Context) (resolved : Resolved StructDecl) : Name × Name :=
  (moduleName ctx.project resolved.1, resolved.2.name)

def Context.searchStructs (ctx : Context) : Nat → List (Name × Name) → Resolved StructDecl → Bool :=
  pathSearch ctx.stackEntry ctx.fieldCarries ctx.fieldStructs

section Search

variable {ctx : Context}

theorem mayCarryWith_eq {onStruct : Name → Name → Bool} {onFound : Resolved StructDecl → Bool}
    (honStruct : ∀ qualifier name, onStruct qualifier name =
      match resolveCanonicalNamedStruct ctx.project ctx.self qualifier name with
      | none => true
      | some resolved => onFound resolved) (type : TypeRef) :
    mayCarryWith onStruct type =
      (ctx.carriesHere type || (ctx.structAt type).toList.any onFound) := by
  induction type with
  | result inner ih => exact ih
  | array inner size ih => exact ih
  | named qualifier name =>
      rw [mayCarryWith, honStruct, Context.carriesHere, mayCarryWith, Context.structAt]
      cases resolveCanonicalNamedStruct ctx.project ctx.self qualifier name with
      | none => rfl
      | some resolved => simp
  | _ => rfl

theorem fields_any_eq {onStruct : Name → Name → Bool} {onFound : Resolved StructDecl → Bool}
    (honStruct : ∀ qualifier name, onStruct qualifier name =
      match resolveCanonicalNamedStruct ctx.project ctx.self qualifier name with
      | none => true
      | some resolved => onFound resolved) (owner : Resolved StructDecl) :
    (owner.2.fields.any fun field =>
        mayCarryWith onStruct (canonType ctx.project owner.1 field.type)) =
      (ctx.fieldCarries owner || (ctx.fieldStructs owner).any onFound) := by
  have htypes : ∀ types : List TypeRef, types.any (mayCarryWith onStruct) =
      (types.any ctx.carriesHere || (types.filterMap ctx.structAt).any onFound) := by
    intro types
    induction types with
    | nil => rfl
    | cons type rest ih =>
        rw [List.any_cons, ih, mayCarryWith_eq honStruct type, List.any_cons, List.filterMap_cons]
        cases ctx.structAt type with
        | none => simp [Bool.or_assoc]
        | some resolved =>
            simp only [Option.toList_some, List.any_cons, List.any_nil, Bool.or_false]
            ac_rfl
  rw [Context.fieldCarries, Context.fieldStructs, Context.fieldTypes, ← htypes, List.any_map]
  rfl

theorem mayCarryStruct_eq (room : Nat) : ∀ (stack : List (Name × Name)) (qualifier name : Name),
    mayCarryStruct ctx room stack qualifier name =
      match resolveCanonicalNamedStruct ctx.project ctx.self qualifier name with
      | none => true
      | some resolved => ctx.searchStructs room stack resolved := by
  induction room with
  | zero =>
      intro stack qualifier name
      unfold mayCarryStruct
      cases resolveCanonicalNamedStruct ctx.project ctx.self qualifier name with
      | none => rfl
      | some resolved =>
          dsimp only
          rw [Context.searchStructs, pathSearch]
          rfl
  | succ room ih =>
      intro stack qualifier name
      unfold mayCarryStruct
      cases resolveCanonicalNamedStruct ctx.project ctx.self qualifier name with
      | none => rfl
      | some resolved =>
          dsimp only
          rw [Context.searchStructs, pathSearch, fields_any_eq (ih _)]
          rfl

theorem mayCarryZoneValue_eq (type : TypeRef) :
    ctx.mayCarryZoneValue type =
      (ctx.carriesHere type || (ctx.structAt type).toList.any (ctx.searchStructs 32 [])) :=
  mayCarryWith_eq (mayCarryStruct_eq 32 []) type

/-! The search is over structs that their stack entries tell apart. -/

/-- The canonical name of the struct leads to it, and not to a struct of another module of that
name. -/
def Context.IsNamed (ctx : Context) (resolved : Resolved StructDecl) : Prop :=
  resolveCanonicalNamedStruct ctx.project ctx.self (moduleName ctx.project resolved.1)
    resolved.2.name = some resolved

/-- No other struct goes by the canonical name of the struct in the type. -/
def Context.Unmistaken (ctx : Context) (type : TypeRef) : Prop :=
  ∀ resolved, ctx.structAt type = some resolved → ∀ other, ctx.IsNamed other →
    ctx.stackEntry other = ctx.stackEntry resolved → other = resolved

theorem stackEntry_injOn : Set.InjOn ctx.stackEntry {resolved | ctx.IsNamed resolved} := by
  intro first hfirst second hsecond heq
  obtain ⟨hmoduleName, hname⟩ := Prod.mk.inj heq
  have hfound : resolveCanonicalNamedStruct ctx.project ctx.self
      (moduleName ctx.project first.1) first.2.name = some first := hfirst
  rw [hmoduleName, hname, show _ = some second from hsecond, Option.some.injEq] at hfound
  exact hfound.symm

theorem resolveStruct_of_canonical {qualifier name : Name} {resolved : Resolved StructDecl}
    (hresolved : resolveCanonicalNamedStruct ctx.project ctx.self qualifier name =
      some resolved) :
    resolveStructInModule ctx.project resolved.1 resolved.2.name = some resolved := by
  simp only [resolveCanonicalNamedStruct, Option.bind_eq_bind, Option.bind_eq_some_iff]
    at hresolved
  obtain ⟨module, -, id, -, hfound⟩ := hresolved
  obtain ⟨hid, hname, -⟩ := resolveStructInModule_spec hfound
  rw [hid, hname]
  exact hfound

theorem isNamed_of_self {own : Module} (hown : ctx.project.modules[ctx.self]? = some own)
    {name : Name} {resolved : Resolved StructDecl}
    (hfound : resolveStructInModule ctx.project ctx.self name = some resolved) :
    ctx.IsNamed resolved := by
  obtain ⟨hid, hname, -⟩ := resolveStructInModule_spec hfound
  have hmoduleName : moduleName ctx.project resolved.1 = own.name := by rw [hid, moduleName, hown]
  rw [Context.IsNamed, hmoduleName, hname]
  simp only [resolveCanonicalNamedStruct, hown, resolveCanonicalNamedModule, or_true,
    if_true, Option.bind_eq_bind, Option.bind_some]
  exact hfound

/-- A canonical name leads to one module, whatever other modules have the name. -/
theorem isNamed_of_moduleName {id : ModuleId} {module : Module}
    (hmodule : ctx.project.modules[id]? = some module) {name : Name}
    {resolved : Resolved StructDecl}
    (hresolved : resolveCanonicalNamedStruct ctx.project ctx.self (moduleName ctx.project id) name =
      some resolved) : ctx.IsNamed resolved := by
  have hmoduleName : moduleName ctx.project id = module.name := by rw [moduleName, hmodule]
  have hspec := hresolved
  simp only [resolveCanonicalNamedStruct, Option.bind_eq_bind, Option.bind_eq_some_iff] at hspec
  obtain ⟨own, hown, target, htarget, hfound⟩ := hspec
  unfold resolveCanonicalNamedModule at htarget
  split at htarget
  · obtain rfl : ctx.self = target := Option.some.inj htarget
    exact isNamed_of_self hown hfound
  · obtain ⟨hid, hname, -⟩ := resolveStructInModule_spec hfound
    cases hfind : ctx.project.findModuleByName (moduleName ctx.project id) with
    | none =>
        rw [Project.findModuleByName, List.findIdx?_eq_none_iff] at hfind
        have hother := hfind module (List.mem_of_getElem? hmodule)
        rw [hmoduleName, beq_self_eq_true] at hother
        cases hother
    | some first =>
        rw [hfind, Option.some_or, Option.some.injEq] at htarget
        subst htarget
        rw [Project.findModuleByName, List.findIdx?_eq_some_iff_getElem] at hfind
        obtain ⟨hlt, hget, -⟩ := hfind
        have hsame : moduleName ctx.project resolved.1 = moduleName ctx.project id := by
          rw [hid, moduleName, List.getElem?_eq_getElem hlt]
          exact eq_of_beq hget
        rw [Context.IsNamed, hsame, hname]
        exact hresolved

theorem isNamed_canonType {id : ModuleId} {type : TypeRef}
    (hvalid : Context.validate ⟨ctx.project, id⟩ type = []) {resolved : Resolved StructDecl}
    (hat : ctx.structAt (canonType ctx.project id type) = some resolved) :
    ctx.IsNamed resolved := by
  induction type with
  | result inner ih => exact ih hvalid hat
  | array inner size ih => exact ih hvalid hat
  | named qualifier name =>
      cases hsource : resolveSourceNamedStruct ctx.project id qualifier name with
      | none => simp [Context.validate, hsource] at hvalid
      | some source =>
          obtain ⟨⟨module, hmodule, -⟩, -⟩ := resolveSourceNamedStruct_accessible hsource
          simp only [canonType, hsource] at hat
          exact isNamed_of_moduleName hmodule hat
  | _ => cases hat

/-- A type that was written in the project is found under its canonical name. -/
theorem unmistaken_canonType {id : ModuleId} {type : TypeRef}
    (hvalid : Context.validate ⟨ctx.project, id⟩ type = []) :
    ctx.Unmistaken (canonType ctx.project id type) :=
  fun _ hat _ hnamed heq => stackEntry_injOn hnamed (isNamed_canonType hvalid hat) heq

theorem resolveStruct_of_structAt {type : TypeRef} {resolved : Resolved StructDecl}
    (hat : ctx.structAt type = some resolved) :
    resolveStructInModule ctx.project resolved.1 resolved.2.name = some resolved := by
  induction type with
  | result inner ih => exact ih hat
  | array inner size ih => exact ih hat
  | named qualifier name => exact resolveStruct_of_canonical hat
  | _ => cases hat

/-- Where no two modules have one name, neither have two structs. -/
theorem unmistaken_of_nodup (hnames : (ctx.project.modules.map (·.name)).Nodup) (type : TypeRef) :
    ctx.Unmistaken type := by
  intro second hat first hnamed heq
  have hfirst := resolveStruct_of_canonical hnamed
  have hsecond := resolveStruct_of_structAt hat
  obtain ⟨hmoduleName, hname⟩ := Prod.mk.inj heq
  obtain ⟨-, -, firstModule, hfirstModule, -⟩ := resolveStructInModule_spec hfirst
  obtain ⟨-, -, secondModule, hsecondModule, -⟩ := resolveStructInModule_spec hsecond
  have hnameAt : (ctx.project.modules.map (·.name))[first.1]? =
      (ctx.project.modules.map (·.name))[second.1]? := by
    rw [moduleName, hfirstModule, moduleName, hsecondModule] at hmoduleName
    rw [List.getElem?_map, List.getElem?_map, hfirstModule, hsecondModule]
    exact congrArg some hmoduleName
  have hbound : first.1 < (ctx.project.modules.map (·.name)).length := by
    rw [List.length_map]
    exact (List.getElem?_eq_some_iff.mp hfirstModule).1
  have hid := (List.getElem?_inj hbound hnames).mp hnameAt
  have hsame : resolveStructInModule ctx.project first.1 first.2.name =
      resolveStructInModule ctx.project second.1 second.2.name := by rw [hid, hname]
  rw [hfirst, hsecond, Option.some.injEq] at hsame
  exact hsame

/-- No way through the fields of structs leads to a pointer, a slice or an unknown type. -/
structure Clear (ctx : Context) (type : TypeRef) : Prop where
  here : ctx.carriesHere type = false
  below : ∀ resolved, ctx.structAt type = some resolved → ∀ other,
    Relation.ReflTransGen (fun first second => second ∈ ctx.fieldStructs first) resolved other →
      ctx.fieldCarries other = false

/-- What `cn_type_may_carry_zone_value` says no to is clear, however deep and shared the structs
are. -/
theorem clear_of_mayCarry (haccepted : Accepted ctx.project) {type : TypeRef}
    (hunmistaken : ctx.Unmistaken type) (hno : ctx.mayCarryZoneValue type = false) :
    Clear ctx type := by
  rw [mayCarryZoneValue_eq, Bool.or_eq_false_iff] at hno
  refine ⟨hno.1, fun resolved hat other hwalk => ?_⟩
  have hsearch : ctx.searchStructs 32 [] resolved = false := by
    rw [hat] at hno
    simpa using hno.2
  have hkey : Set.InjOn ctx.stackEntry (insert resolved {found | ctx.IsNamed found}) := by
    rintro first (rfl | hfirst) second (rfl | hsecond) heq
    · rfl
    · exact (hunmistaken _ hat second hsecond heq.symm).symm
    · exact hunmistaken _ hat first hfirst heq
    · exact stackEntry_injOn hfirst hsecond heq
  refine goal_of_pathSearch hkey ?_ (Set.mem_insert resolved _) hsearch hwalk
  intro owner howner found hfound
  have hdeclared : Declared ctx.project Program.structs owner := by
    obtain rfl | howner := howner
    · exact (resolveStructInModule_spec (resolveStruct_of_structAt hat)).2.2
    · exact (resolveStructInModule_spec (resolveStruct_of_canonical howner)).2.2
  obtain ⟨type, htype, hfoundAt⟩ := List.mem_filterMap.mp hfound
  obtain ⟨field, hfield, rfl⟩ := List.mem_map.mp htype
  exact Or.inr (isNamed_canonType (structField_admitted haccepted hdeclared hfield).1 hfoundAt)

theorem Clear.field {qualifier name : Name} (hclear : Clear ctx (.named qualifier name))
    {owner : Resolved StructDecl}
    (howner : resolveCanonicalNamedStruct ctx.project ctx.self qualifier name = some owner)
    {field : StructField} (hfield : field ∈ owner.2.fields) :
    Clear ctx (canonType ctx.project owner.1 field.type) := by
  have hmem : canonType ctx.project owner.1 field.type ∈ ctx.fieldTypes owner :=
    List.mem_map_of_mem hfield
  refine ⟨?_, fun resolved hat other hwalk => ?_⟩
  · have howns := hclear.below owner howner owner .refl
    exact Bool.eq_false_iff.mpr (List.any_eq_false.mp howns _ hmem)
  · exact hclear.below owner howner other (.head (List.mem_filterMap.mpr ⟨_, hmem, hat⟩) hwalk)

end Search

/-! The values of a type, with the structs as the checker finds them in a module. -/

/-- The zeroed payload of an `err` may have a null string in it. -/
inductive ValueOf (ctx : Context) : TypeRef → Value → Prop where
  | int (value : BitVec 64) : ValueOf ctx .int (.int value)
  | u8 (value : BitVec 8) : ValueOf ctx .u8 (.u8 value)
  | bool (value : Bool) : ValueOf ctx .bool (.bool value)
  | str (owner : Option Nat) (bytes : List UInt8) : ValueOf ctx .str (.str owner bytes)
  | nullStr : ValueOf ctx .str .undef
  | void : ValueOf ctx .void .void
  | null : ValueOf ctx .null (.ptr none)
  | ptr (inner : TypeRef) (target : Option Place) : ValueOf ctx (.ptr inner) (.ptr target)
  | slice (inner : TypeRef) (data : Option Place) (length : BitVec 64) :
      ValueOf ctx (.slice inner) (Value.slice data length)
  | result {inner : TypeRef} {payload : Value} (isOk : Bool) (hpayload : ValueOf ctx inner payload) :
      ValueOf ctx (.result inner) (.aggregate [.bool isOk, payload])
  | array {inner : TypeRef} {items : List Value} (hitems : ∀ item ∈ items, ValueOf ctx inner item) :
      ValueOf ctx (.array inner items.length) (.aggregate items)
  | named {qualifier name : Name} {owner : Resolved StructDecl} {items : List Value}
      (howner : resolveCanonicalNamedStruct ctx.project ctx.self qualifier name = some owner)
      (hlength : items.length = owner.2.fields.length)
      (hitems : ∀ (index : Nat) (field : StructField) (item : Value),
        owner.2.fields[index]? = some field → items[index]? = some item →
          ValueOf ctx (canonType ctx.project owner.1 field.type) item) :
      ValueOf ctx (.named qualifier name) (.aggregate items)

/-- `part`, of type `partType`, stands in a value at some depth of fields, array elements and
result payloads. -/
inductive PartOf (ctx : Context) : TypeRef → Value → TypeRef → Value → Prop where
  | whole (type : TypeRef) (value : Value) : PartOf ctx type value type value
  | payload {inner partType : TypeRef} {flag payload part : Value}
      (hpart : PartOf ctx inner payload partType part) :
      PartOf ctx (.result inner) (.aggregate [flag, payload]) partType part
  | element {inner partType : TypeRef} {size : Nat} {items : List Value} {item part : Value}
      (hitem : item ∈ items) (hpart : PartOf ctx inner item partType part) :
      PartOf ctx (.array inner size) (.aggregate items) partType part
  | field {qualifier name : Name} {owner : Resolved StructDecl} {index : Nat} {field : StructField}
      {partType : TypeRef} {items : List Value} {item part : Value}
      (howner : resolveCanonicalNamedStruct ctx.project ctx.self qualifier name = some owner)
      (hfield : owner.2.fields[index]? = some field) (hitem : items[index]? = some item)
      (hpart : PartOf ctx (canonType ctx.project owner.1 field.type) item partType part) :
      PartOf ctx (.named qualifier name) (.aggregate items) partType part

inductive PointsTo : Value → Place → Prop where
  | ptr (place : Place) : PointsTo (.ptr (some place)) place
  | item {items : List Value} {item : Value} {place : Place} (hitem : item ∈ items)
      (hpoints : PointsTo item place) : PointsTo (.aggregate items) place

section Values

variable {ctx : Context}

theorem Clear.partOf {type partType : TypeRef} {value part : Value}
    (hpart : PartOf ctx type value partType part) (hclear : Clear ctx type) :
    Clear ctx partType := by
  induction hpart with
  | whole => exact hclear
  | payload _ ih => exact ih ⟨hclear.here, hclear.below⟩
  | element _ _ ih => exact ih ⟨hclear.here, hclear.below⟩
  | field howner hfield _ _ ih => exact ih (hclear.field howner (List.mem_of_getElem? hfield))

theorem Clear.not_pointsTo {type : TypeRef} {value : Value} (hvalue : ValueOf ctx type value)
    (hclear : Clear ctx type) (place : Place) : ¬ PointsTo value place := by
  induction hvalue with
  | int | u8 | bool | str | nullStr | void | null => rintro ⟨⟩
  | ptr inner target => exact absurd hclear.here (by simp [Context.carriesHere, mayCarryWith])
  | slice inner data length =>
      exact absurd hclear.here (by simp [Context.carriesHere, mayCarryWith])
  | result isOk _ ih =>
      rintro (_ | ⟨hitem, hpoints⟩)
      obtain rfl | hitem := List.mem_cons.mp hitem
      · cases hpoints
      · rw [List.mem_singleton.mp hitem] at hpoints
        exact ih ⟨hclear.here, hclear.below⟩ hpoints
  | array _ ih =>
      rintro (_ | ⟨hitem, hpoints⟩)
      exact ih _ hitem ⟨hclear.here, hclear.below⟩ hpoints
  | named howner hlength _ ih =>
      rintro (_ | ⟨hitem, hpoints⟩)
      obtain ⟨index, hbound, hget⟩ := List.getElem_of_mem hitem
      rw [hlength] at hbound
      exact ih index _ _ (List.getElem?_eq_getElem hbound)
        (List.getElem?_eq_some_iff.mpr ⟨_, hget⟩)
        (hclear.field howner (List.getElem_mem hbound)) hpoints

end Values

/-- A type that `cn_type_may_carry_zone_value` says no to has no value with a pointer or a slice
in it, so the depth 0 that `cn_expr_zone_depth` returns at once is the depth of everything that
the value leads to. -/
theorem may_carry_over_approximates {project : Project} (haccepted : Accepted project)
    (self : ModuleId) {type : TypeRef} (hunmistaken : Context.Unmistaken ⟨project, self⟩ type)
    (hno : Context.mayCarryZoneValue ⟨project, self⟩ type = false) :
    (∀ value partType part, PartOf ⟨project, self⟩ type value partType part →
      ∀ inner, partType ≠ .ptr inner ∧ partType ≠ .slice inner) ∧
    (∀ value, ValueOf ⟨project, self⟩ type value → ∀ place, ¬ PointsTo value place) ∧
    ∀ scope expression, exprZoneDepth ⟨project, self⟩ scope expression type = 0 := by
  have hclear : Clear ⟨project, self⟩ type := clear_of_mayCarry haccepted hunmistaken hno
  refine ⟨fun value partType part hpart inner => ?_, fun value hvalue place =>
    hclear.not_pointsTo hvalue place, fun scope expression => ?_⟩
  · have hpartClear := (hclear.partOf hpart).here
    constructor
    · rintro rfl
      cases hpartClear
    · rintro rfl
      cases hpartClear
  · unfold exprZoneDepth
    rw [hno]
    rfl

/-- `struct Leaf { n: int }`, `struct Pair { first: Leaf, second: Leaf }`, and a struct that holds
pairs in two ways. -/
def sharingProject : Project :=
  ⟨[⟨false, "main", ⟨[], [], [⟨false, "Leaf", [⟨"n", .int⟩]⟩,
    ⟨false, "Pair", [⟨"first", .named "" "Leaf"⟩, ⟨"second", .named "" "Leaf"⟩]⟩,
    ⟨false, "Pairs", [⟨"one", .named "" "Pair"⟩, ⟨"more", .array (.named "" "Pair") 2⟩]⟩],
    [mainFunction [.returnStmt (some (.int 0))]]⟩, []⟩]⟩

theorem may_carry_sharing :
    Accepted sharingProject ∧
      ∀ value, ValueOf ⟨sharingProject, 0⟩ (.result (.named "main" "Pairs")) value →
        ∀ place, ¬ PointsTo value place :=
  ⟨by decide, (may_carry_over_approximates (by decide) 0
    (unmistaken_of_nodup (by simp [sharingProject]) _) (by decide)).2.1⟩

end Check

end Cnegative
