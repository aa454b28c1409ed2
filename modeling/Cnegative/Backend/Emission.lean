import Cnegative.Backend.Succeeds

namespace Cnegative

open Library (Code Chain Frame)

open Typing (TypeEnv exprTyped boundTyped itemsTyped fieldsTyped stmtTyped stmtsTyped elseTyped
  scopeAfter assignable functionTyped paramTypes zonePointer)

namespace Llvm

/-! What the emission still refuses behind the validation. -/

mutual

/-- No call of a function of the program passes more arguments than `cn_llvm_lower_call`
has room for, and no array or struct literal is without a member. -/
def exprFits : IrExpr → Bool
  | .int _ _ | .bool _ _ | .string _ _ | .null _ | .local _ _ | .err _ | .alloc _ _
  | .zalloc _ _ _ => true
  | .unary _ _ operand => exprFits operand
  | .binary _ _ left right => exprFits left && exprFits right
  | .ifExpr _ condition thenExpr elseExpr =>
      exprFits condition && (exprFits thenExpr && exprFits elseExpr)
  | .call _ target _ _ arguments =>
      (target = .builtin || arguments.length ≤ 32) && itemsFit arguments
  | .arrayLiteral _ items => itemsFit items && !items.isEmpty
  | .sliceFromArray _ base => exprFits base
  | .index _ base index => exprFits index && exprFits base
  | .sliceView _ base start stop => boundFits start && (exprFits base && boundFits stop)
  | .field _ base _ => exprFits base
  | .structLiteral _ _ _ fields => fieldsFit fields && !fields.isEmpty
  | .ok _ value => exprFits value
  | .addr _ target | .deref _ target => exprFits target

def itemsFit : List IrExpr → Bool
  | [] => true
  | item :: rest => exprFits item && itemsFit rest

def boundFits : Option IrExpr → Bool
  | none => true
  | some bound => exprFits bound

def fieldsFit : List (Name × IrExpr) → Bool
  | [] => true
  | (_, value) :: rest => exprFits value && fieldsFit rest

end

mutual

def stmtFits : IrStmt → Bool
  | .letStmt _ _ _ initializer => exprFits initializer
  | .assign target value => exprFits target && exprFits value
  | .returnStmt none => true
  | .returnStmt (some value) | .expr value | .free value => exprFits value
  | .zone _ body | .loop body => blockFits body
  | .ifStmt condition thenBlock elseBlock =>
      exprFits condition && (blockFits thenBlock && elseFits elseBlock)
  | .whileStmt condition body => exprFits condition && blockFits body
  | .forStmt _ _ start stop body => exprFits start && (exprFits stop && blockFits body)

def elseFits : Option (List IrStmt) → Bool
  | none => true
  | some block => blockFits block

def blockFits : List IrStmt → Bool
  | [] => true
  | statement :: rest => stmtFits statement && blockFits rest

end

/-! What stands around an expression. -/

/-- Every local in scope has a slot of its type. -/
structure Binds (scope : Scope) (typeEnv : TypeEnv) : Prop where
  nonempty : scope ≠ []
  binding : ∀ name type, typeEnv.typeOf? name = some type →
    ∃ binding : Binding, (Chain.find? scope name).map Prod.snd = some binding ∧
      binding.type = type

namespace Binds

variable {scope : Scope} {typeEnv : TypeEnv}

theorem push (hbinds : Binds scope typeEnv) : Binds scope.push typeEnv.push where
  nonempty := List.cons_ne_nil _ _
  binding := by
    intro name type htype
    simp only [TypeEnv.typeOf?, TypeEnv.push, Chain.find?_cons_empty] at htype
    simpa only [Scope.push, Chain.find?_cons_empty] using hbinds.binding name type htype

theorem define (hbinds : Binds scope typeEnv) (name : Name) (type : TypeRef) (isMutable : Bool)
    (id : Nat) : Binds (scope.define name type id) (typeEnv.define name type isMutable) where
  nonempty := by
    cases scope with
    | nil => exact absurd rfl hbinds.nonempty
    | cons frame outer => exact List.cons_ne_nil _ _
  binding := by
    intro other wanted hwanted
    cases scope with
    | nil => exact absurd rfl hbinds.nonempty
    | cons frame outer =>
        cases typeEnv with
        | nil => simp [TypeEnv.typeOf?, TypeEnv.define, Chain.define] at hwanted
        | cons typeFrame typeOuter =>
            have hother := hbinds.binding other wanted
            rw [TypeEnv.typeOf?, TypeEnv.define, Chain.find?_define] at hwanted
            rw [Scope.define, Chain.find?_define]
            split at hwanted
            · rename_i hname
              simp only [Option.map_some, Option.some.injEq] at hwanted
              rw [if_pos hname]
              exact ⟨_, rfl, hwanted⟩
            · rename_i hname
              rw [if_neg hname]
              exact hother hwanted

/-- The look-up goes through. -/
theorem lookup (hbinds : Binds scope typeEnv) {name : Name} {type : TypeRef}
    (htype : typeEnv.typeOf? name = some type) :
    Succeeds True (scope.lookup name) fun binding => binding.type = type := by
  obtain ⟨binding, hfind, hbinding⟩ := hbinds.binding name type htype
  exact (Succeeds.ofOption hfind).weaken fun found hfound => by rw [hfound, hbinding]

end Binds

def Collected (context : EmitContext) (expression : IrExpr) : Prop :=
  ∀ type bytes, (IrExpr.string type bytes).Within expression →
    ∃ globalId, context.strings.findIdx? (fun entry => entry == bytes) = some globalId

theorem Collected.child {context : EmitContext} {expression child : IrExpr}
    (hcollected : Collected context expression) (hchild : child ∈ expression.children) :
    Collected context child :=
  fun type bytes hwithin => hcollected type bytes (.child hchild hwithin)

/-- The value of an expression has its type, unless it is the answer of `std.strings.eq`,
which the emitter gives the type `bool` whatever the call has. -/
def StandsFor (type : TypeRef) (value : LlvmValue) : Prop :=
  value.type = type ∨ value.type = .bool

structure Lowers (fits : Prop) (type : TypeRef) (lowered : Lowered) : Prop where
  value : Succeeds fits lowered.value (StandsFor type)
  address : Succeeds fits lowered.address fun _ => True

namespace Lowers

variable {fits more : Prop} {type : TypeRef}

theorem ofValue {value : Emit LlvmValue} (hvalue : Succeeds fits value (StandsFor type)) :
    Lowers fits type (.ofValue type value) where
  value := hvalue
  address := hvalue.andThen fun _ _ => .step (.result _) fun _ _ => .step (.write _) fun _ _ =>
    .pure trivial

theorem ofTyped {value : Emit LlvmValue}
    (hvalue : Succeeds fits value fun value => value.type = type) :
    Lowers fits type (.ofValue type value) :=
  ofValue (hvalue.weaken fun _ => Or.inl)

theorem ofAddress {address : Emit Address}
    (haddress : Succeeds fits address fun address => address.type = type) :
    Lowers fits type (.ofAddress address) where
  value := haddress.andThen fun _ hsource =>
    (Succeeds.emitLoad _ _).weaken fun _ hvalue => Or.inl (hvalue.trans hsource)
  address := haddress.weaken fun _ _ => trivial

theorem constant {value : LlvmValue} (htype : value.type = type) :
    Lowers True type (.ofValue type (pure value)) :=
  ofTyped (Succeeds.pure htype)

theorem of_iff {lowered : Lowered} (hiff : more ↔ fits) (hlowers : Lowers fits type lowered) :
    Lowers more type lowered :=
  ⟨hlowers.value.of_iff hiff, hlowers.address.of_iff hiff⟩

end Lowers

/-- An operator that has both operands evaluated. -/
theorem emitBinary_succeeds {structs : StructTable} (type : TypeRef) {op : BinaryOp}
    {left : LlvmValue} (right : LlvmValue) (hand : op ≠ .and) (hor : op ≠ .or)
    (hequality : op = .equal ∨ op = .notEqual → Comparable structs left.type) :
    Succeeds True (emitBinary structs type op left right) (StandsFor type) := by
  have hregister : ∀ inst : Nat → Inst,
      Succeeds True (do return LlvmValue.register type (← Emit.result inst)) (StandsFor type) :=
    fun inst => (Succeeds.register inst).weaken fun _ => Or.inl
  cases op with
  | equal => exact (emitValueEquality_succeeds (hequality (Or.inl rfl)) _ _).weaken fun _ => Or.inr
  | notEqual =>
      refine .step (emitValueEquality_succeeds (hequality (Or.inr rfl)) _ _) fun _ _ => ?_
      exact (Succeeds.emitBoolNot _).weaken fun _ => Or.inr
  | and => exact absurd rfl hand
  | or => exact absurd rfl hor
  | _ => exact hregister _

theorem emitUnary_succeeds (type : TypeRef) (op : UnaryOp) (operand : LlvmValue) :
    Succeeds True (emitUnary type op operand) fun value => value.type = type := by
  cases op with
  | negate => exact .register _
  | not => exact .register _

theorem emitPrint_succeeds (type : TypeRef) (isPrint : Bool) {argument : LlvmValue}
    (hdisplay : supportsPrint argument.type = true) :
    Succeeds True (emitPrint type isPrint argument) (StandsFor type) := by
  have hcall : ∀ (symbol : String) (argument : LlvmValue),
      Succeeds True (emitPrintCall type symbol argument) (StandsFor type) :=
    fun symbol argument => .step (.write _) fun _ _ => .pure (Or.inl rfl)
  unfold emitPrint
  cases htype : argument.type with
  | int | bool | str => exact hcall _ _
  | u8 => exact .step (.result _) fun _ _ => hcall _ _
  | _ => simp [htype, supportsPrint] at hdisplay

theorem display_of_validated {functionName : Name} {types : List TypeRef} {argument : LlvmValue}
    (hname : functionName = "print" ∨ functionName = "println")
    (hdisplay : validateDisplay "" functionName types = .ok ())
    (harguments : List.Forall₂ StandsFor types [argument]) :
    supportsPrint argument.type = true := by
  cases harguments with
  | cons hstands _ =>
      unfold validateDisplay at hdisplay
      rw [if_pos ⟨rfl, hname⟩] at hdisplay
      split at hdisplay
      · rename_i hshow
        obtain htype | hbool := hstands
        · rw [htype]
          simpa using hshow
        · rw [hbool]
          rfl
      · cases hdisplay

theorem comparable_of_validated {structs : StructTable} {fuel : Nat} {op : BinaryOp}
    {type : TypeRef} (hvalid : validateEquality structs fuel op type = .ok ())
    (hequality : op = .equal ∨ op = .notEqual) : Comparable structs type := by
  unfold validateEquality at hvalid
  rw [if_pos hequality] at hvalid
  cases hanswer : supportsEquality structs fuel type with
  | none => simp [hanswer] at hvalid
  | some answer =>
      cases answer with
      | false => simp [hanswer] at hvalid
      | true => exact comparable_of_supportsEquality fuel hanswer

/-- A builtin call that was validated goes through with its arguments. -/
theorem emitBuiltinCall_succeeds {structs : StructTable} {moduleName functionName : Name}
    {group : ArityGroup} (type : TypeRef) {types : List TypeRef} {arguments : List LlvmValue}
    (hfind : findArity moduleName functionName = some group)
    (hcount : types.length = group.count)
    (hdisplay : validateDisplay moduleName functionName types = .ok ())
    (harguments : List.Forall₂ StandsFor types arguments) :
    Succeeds True (emitBuiltinCall structs type moduleName functionName arguments)
      (StandsFor type) := by
  have hlength := harguments.length_eq
  have htables := tablesAgree_of_findArity hfind
  unfold tablesAgree at htables
  unfold emitBuiltinCall
  cases hnamed : findNamedCall moduleName functionName with
  | some entry =>
      rw [hnamed] at htables
      have hentry : entry.argumentCount = group.count := of_decide_eq_true htables
      dsimp only
      rw [if_neg (by omega)]
      exact (Succeeds.emitCall _ _ _).weaken fun _ => Or.inl
  | none =>
      rw [hnamed] at htables
      simp only [List.contains_eq_mem, List.mem_cons, Prod.mk.injEq, List.not_mem_nil, or_false,
        decide_eq_true_eq] at htables
      dsimp only
      obtain ⟨rfl, rfl, hone⟩ | ⟨rfl, rfl, hone⟩ | ⟨rfl, rfl, htwo⟩ := htables
      · obtain ⟨argument, rfl⟩ := List.length_eq_one_iff.mp
          (show arguments.length = 1 by omega)
        exact emitPrint_succeeds type true (display_of_validated (Or.inl rfl) hdisplay harguments)
      · obtain ⟨argument, rfl⟩ := List.length_eq_one_iff.mp
          (show arguments.length = 1 by omega)
        exact emitPrint_succeeds type false (display_of_validated (Or.inr rfl) hdisplay harguments)
      · obtain ⟨first, second, rfl⟩ := List.length_eq_two.mp (show arguments.length = 2 by omega)
        exact (emitValueEquality_succeeds .str _ _).weaken fun _ => Or.inr

section

variable {program : IrProgram} {typeEnv : TypeEnv} {scope : Scope} {fuel : Nat}

structure Ready (program : IrProgram) (typeEnv : TypeEnv) (fuel : Nat)
    (expression : IrExpr) : Prop where
  typed : exprTyped program typeEnv expression = true
  valid : validateExpression program.structTable fuel expression = .ok ()
  collected : Collected (emitContext program) expression

def AllLower (program : IrProgram) (scope : Scope) (expressions : List IrExpr) : Prop :=
  ∀ expression ∈ expressions, Lowers (exprFits expression = true) expression.type
    (lowerExpression (emitContext program) scope expression)

theorem lowerArguments_succeeds {arguments : List IrExpr}
    (harguments : AllLower program scope arguments) :
    Succeeds (itemsFit arguments = true) (lowerArguments (emitContext program) scope arguments)
      (List.Forall₂ StandsFor (arguments.map IrExpr.type)) := by
  induction arguments with
  | nil => exact (Succeeds.pure List.Forall₂.nil).of_iff (by simp [itemsFit])
  | cons argument rest ih =>
      have hrest := ih fun other hother => harguments other (List.mem_cons_of_mem _ hother)
      refine Succeeds.of_iff (by rw [itemsFit, Bool.and_eq_true]) <|
        .bind (harguments argument List.mem_cons_self).value fun first hfirst => ?_
      exact hrest.andThen fun remaining hremaining => .pure (.cons hfirst hremaining)

theorem lowerItems_succeeds (type : TypeRef) {items : List IrExpr}
    (hitems : AllLower program scope items) (index : Nat) (aggregate : Option Nat) :
    Succeeds (itemsFit items = true)
      (lowerItems (emitContext program) scope type index aggregate items)
      fun id => id.isSome = (aggregate.isSome || !items.isEmpty) := by
  induction items generalizing index aggregate with
  | nil => exact (Succeeds.pure (by simp)).of_iff (by simp [itemsFit])
  | cons item rest ih =>
      have hrest := ih fun other hother => hitems other (List.mem_cons_of_mem _ hother)
      refine Succeeds.of_iff (by rw [itemsFit, Bool.and_eq_true]) <|
        .bind (hitems item List.mem_cons_self).value fun _ _ => ?_
      refine .step (.result _) fun id _ => (hrest (index + 1) (some id)).weaken fun last hlast => ?_
      simpa using hlast

theorem lowerFields_succeeds (type : TypeRef) {decl : IrStruct} {fields : List (Name × IrExpr)}
    (hfields : AllLower program scope (fields.map Prod.snd))
    (htyped : fieldsTyped program typeEnv decl fields = true) (aggregate : Option Nat) :
    Succeeds (fieldsFit fields = true)
      (lowerFields (emitContext program) scope decl type aggregate fields)
      fun id => id.isSome = (aggregate.isSome || !fields.isEmpty) := by
  induction fields generalizing aggregate with
  | nil => exact (Succeeds.pure (by simp)).of_iff (by simp [fieldsFit])
  | cons field rest ih =>
      obtain ⟨fieldName, value⟩ := field
      simp only [fieldsTyped, Bool.and_eq_true, decide_eq_true_eq] at htyped
      have hrest := ih (fun other hother => hfields other (List.mem_cons_of_mem _ hother)) htyped.2
      have hfind : (decl.fields.findIdx? fun entry => entry.name == fieldName).isSome = true := by
        have hsome := congrArg Option.isSome htyped.1.2
        rw [Option.isSome_map, Option.isSome_some, List.find?_isSome] at hsome
        rw [List.findIdx?_isSome]
        exact List.any_eq_true.mpr hsome
      obtain ⟨index, hindex⟩ := Option.isSome_iff_exists.mp hfind
      refine Succeeds.of_iff (by rw [fieldsFit, Bool.and_eq_true]) <|
        .step (.ofOption hindex) fun _ _ => .bind (hfields value List.mem_cons_self).value
          fun _ _ => .step (.result _) fun id _ => (hrest (some id)).weaken fun last hlast => ?_
      simpa using hlast

/-- The register of an aggregate, where a member was inserted. -/
theorem aggregate_succeeds {type : TypeRef} {id : Option Nat} {empty : Bool}
    (hid : id.isSome = !empty) :
    Succeeds ((!empty) = true)
      (match id with
        | some id => (pure (.register type id) : Emit LlvmValue)
        | none => Emit.fail) fun value => value.type = type := by
  cases id with
  | none => exact Succeeds.fail.of_iff (by simp [← hid])
  | some id =>
      have hpure : Succeeds True (pure (.register type id) : Emit LlvmValue)
          fun value => value.type = type := .pure rfl
      exact hpure.of_iff (by simp [← hid])

theorem lowerBound_succeeds {fallback : Emit LlvmValue} {post : LlvmValue → Prop}
    (hfallback : Succeeds True fallback post) {bound : Option IrExpr}
    (hbound : ∀ expression, bound = some expression → Lowers (exprFits expression = true)
      expression.type (lowerExpression (emitContext program) scope expression)) :
    Succeeds (boundFits bound = true) (lowerBound (emitContext program) scope fallback bound)
      fun _ => True := by
  cases bound with
  | none => exact (hfallback.weaken fun _ _ => trivial).of_iff (by simp [boundFits])
  | some expression => exact (hbound expression rfl).value.weaken fun _ _ => trivial

/-! Expressions, by what stands below them. -/

theorem Ready.items {items : List IrExpr} (htyped : itemsTyped program typeEnv items = true)
    (hvalid : validateExpressions program.structTable fuel items = .ok ())
    (hcollected : ∀ item ∈ items, Collected (emitContext program) item) :
    ∀ item ∈ items, Ready program typeEnv fuel item := by
  induction items with
  | nil => exact fun item hitem => absurd hitem List.not_mem_nil
  | cons item rest ih =>
      rw [itemsTyped, Bool.and_eq_true] at htyped
      rw [validateExpressions, Validation.seq] at hvalid
      rw [List.forall_mem_cons] at hcollected ⊢
      exact ⟨⟨htyped.1, hvalid.1, hcollected.1⟩, ih htyped.2 hvalid.2 hcollected.2⟩

theorem Ready.fields {decl : IrStruct} {fields : List (Name × IrExpr)}
    (htyped : fieldsTyped program typeEnv decl fields = true)
    (hvalid : validateFields program.structTable fuel fields = .ok ())
    (hcollected : ∀ value ∈ fields.map Prod.snd, Collected (emitContext program) value) :
    ∀ value ∈ fields.map Prod.snd, Ready program typeEnv fuel value := by
  induction fields with
  | nil => exact fun value hvalue => absurd hvalue List.not_mem_nil
  | cons field rest ih =>
      obtain ⟨fieldName, value⟩ := field
      rw [fieldsTyped, Bool.and_eq_true, Bool.and_eq_true] at htyped
      rw [validateFields, Validation.seq] at hvalid
      rw [List.map_cons, List.forall_mem_cons] at hcollected ⊢
      exact ⟨⟨htyped.1.1, hvalid.1, hcollected.1⟩, ih htyped.2 hvalid.2 hcollected.2⟩

theorem Ready.bound {bound : Option IrExpr} (htyped : boundTyped program typeEnv bound = true)
    (hvalid : validateBound program.structTable fuel bound = .ok ())
    (hcollected : ∀ expression, bound = some expression →
      Collected (emitContext program) expression) :
    ∀ expression, bound = some expression → Ready program typeEnv fuel expression := by
  rintro expression rfl
  rw [boundTyped, Bool.and_eq_true] at htyped
  exact ⟨htyped.1, hvalid, hcollected expression rfl⟩

theorem validateExpressions_of_call {type : TypeRef} {target : CallTarget}
    {moduleName functionName : Name} {arguments : List IrExpr}
    (hvalid : validateExpression program.structTable fuel
      (.call type target moduleName functionName arguments) = .ok ()) :
    validateExpressions program.structTable fuel arguments = .ok () := by
  simp only [validateExpression, Validation.seq] at hvalid
  obtain ⟨-, hvalid⟩ := hvalid
  cases target with
  | builtin =>
      cases hfind : findArity moduleName functionName with
      | none => simp [hfind] at hvalid
      | some group =>
          simp only [hfind] at hvalid
          split at hvalid
          · exact (Validation.seq.mp hvalid).1
          · cases hvalid
  | «local» => exact hvalid
  | module => exact hvalid

theorem call_lowers {type : TypeRef} {target : CallTarget} {moduleName functionName : Name}
    {arguments : List IrExpr}
    (hvalid : validateExpression program.structTable fuel
      (.call type target moduleName functionName arguments) = .ok ())
    (harguments : AllLower program scope arguments) :
    Lowers (exprFits (.call type target moduleName functionName arguments) = true) type
      (lowerExpression (emitContext program) scope
        (.call type target moduleName functionName arguments)) := by
  have hlower := lowerArguments_succeeds harguments
  have hcall : target ≠ .builtin → Lowers (arguments.length ≤ 32 ∧ itemsFit arguments = true) type
      (.ofValue type (if 32 < arguments.length then Emit.fail
        else do
          emitCall type (.function moduleName functionName)
            (← lowerArguments (emitContext program) scope arguments))) := by
    intro _
    refine .ofTyped ?_
    by_cases hmany : 32 < arguments.length
    · rw [if_pos hmany]
      exact Succeeds.fail.of_iff (by simp; omega)
    · rw [if_neg hmany]
      exact (hlower.andThen fun _ _ => .emitCall _ _ _).of_iff (by simp; omega)
  cases target with
  | builtin =>
      rw [lowerExpression]
      simp only [validateExpression, Validation.seq] at hvalid
      obtain ⟨-, hvalid⟩ := hvalid
      cases hfind : findArity moduleName functionName with
      | none => simp [hfind] at hvalid
      | some group =>
          simp only [hfind] at hvalid
          split at hvalid
          · rename_i hcount
            rw [Validation.seq] at hvalid
            have hfour := count_le_of_findArity hfind
            rw [if_neg (by omega)]
            refine (Lowers.ofValue (hlower.andThen fun values hvalues => ?_)).of_iff
              (by simp [exprFits])
            exact emitBuiltinCall_succeeds type hfind (by simpa using hcount) hvalid.2 hvalues
          · cases hvalid
  | «local» =>
      rw [lowerExpression]
      · exact (hcall (by simp)).of_iff (by simp [exprFits])
      · simp
  | module =>
      rw [lowerExpression]
      · exact (hcall (by simp)).of_iff (by simp [exprFits])
      · simp

theorem sliceView_lowers {type : TypeRef} {base : IrExpr} {start stop : Option IrExpr}
    (hbase : Lowers (exprFits base = true) base.type
      (lowerExpression (emitContext program) scope base))
    (hstart : ∀ expression, start = some expression → Lowers (exprFits expression = true)
      expression.type (lowerExpression (emitContext program) scope expression))
    (hstop : ∀ expression, stop = some expression → Lowers (exprFits expression = true)
      expression.type (lowerExpression (emitContext program) scope expression)) :
    Lowers (exprFits (.sliceView type base start stop) = true) type
      (lowerExpression (emitContext program) scope (.sliceView type base start stop)) := by
  have hconstant : ∀ {value}, Succeeds True (pure (constantInt value) : Emit LlvmValue)
      fun _ => True := .pure trivial
  rw [exprFits, Bool.and_eq_true, Bool.and_eq_true, lowerExpression]
  refine .ofTyped (.bind (lowerBound_succeeds hconstant hstart) fun _ _ => ?_)
  cases base.type.arraySize? with
  | some size =>
      refine .bind hbase.address fun _ _ => .step (.result _) fun _ _ => ?_
      refine .andThen (lowerBound_succeeds hconstant hstop) fun _ _ => ?_
      exact .step (.emitIntSub _ _) fun _ _ => .emitSlice _ _ _
  | none =>
      refine .bind hbase.value fun _ _ => .step (.emitExtractvalue _ _ _) fun _ _ => ?_
      refine .step (.result _) fun _ _ => ?_
      refine .andThen (lowerBound_succeeds (.emitExtractvalue _ _ _) hstop) fun _ _ => ?_
      exact .step (.emitIntSub _ _) fun _ _ => .emitSlice _ _ _

theorem field_lowers {type : TypeRef} {base : IrExpr} {fieldName : Name}
    (htyped : exprTyped program typeEnv (.field type base fieldName) = true)
    (hbase : Lowers (exprFits base = true) base.type
      (lowerExpression (emitContext program) scope base)) :
    Lowers (exprFits (.field type base fieldName) = true) type
      (lowerExpression (emitContext program) scope (.field type base fieldName)) := by
  rw [exprFits, lowerExpression]
  refine .ofAddress ?_
  simp only [exprTyped, Bool.and_eq_true] at htyped
  obtain ⟨-, htyped⟩ := htyped
  have hfield : (∀ inner, base.type ≠ .ptr inner) →
      (resolveField program.structTable base.type fieldName).map Prod.fst = some type →
        Succeeds (exprFits base = true) (do
          let baseAddress ← (lowerExpression (emitContext program) scope base).address
          let field ← Emit.ofOption
            (resolveField (emitContext program).structs base.type fieldName)
          return ⟨field.1, .reg (← Emit.result fun id =>
            .fieldGep id base.type baseAddress.pointer field.2)⟩)
          fun address : Address => address.type = type := by
    intro _ hresolve
    obtain ⟨field, hfound, htype⟩ := Option.map_eq_some_iff.mp hresolve
    refine .andThen hbase.address fun _ _ => .step (.ofOption hfound) fun found hfound => ?_
    exact .step (.result _) fun _ _ => .pure (by rw [hfound]; exact htype)
  cases hptr : base.type with
  | ptr inner =>
      simp only [hptr, decide_eq_true_eq] at htyped
      exact .andThen hbase.value fun _ _ => .pure htyped.symm
  | _ =>
      rw [hptr] at hfield
      simp only [hptr, decide_eq_true_eq] at htyped
      exact hfield (by simp) htyped

theorem structLiteral_lowers {type : TypeRef} {moduleName typeName : Name}
    {fields : List (Name × IrExpr)} {decl : IrStruct}
    (hdecl : program.structTable.find moduleName typeName = some decl)
    (htyped : fieldsTyped program typeEnv decl fields = true)
    (hfields : AllLower program scope (fields.map Prod.snd)) :
    Lowers (exprFits (.structLiteral type moduleName typeName fields) = true) type
      (lowerExpression (emitContext program) scope
        (.structLiteral type moduleName typeName fields)) := by
  rw [exprFits, Bool.and_eq_true, lowerExpression]
  refine .ofTyped (.step (.ofOption hdecl) fun found hfound => ?_)
  subst hfound
  exact .bind (lowerFields_succeeds type hfields htyped none) fun id hid =>
    aggregate_succeeds (by simpa using hid)

/-- A typed and validated expression is lowered just if it fits. -/
theorem expression_lowers (hbinds : Binds scope typeEnv) (expression : IrExpr) :
    Ready program typeEnv fuel expression → Lowers (exprFits expression = true) expression.type
      (lowerExpression (emitContext program) scope expression) := by
  induction expression using IrExpr.inductionOnChildren with
  | hstep expression ih =>
      rintro ⟨htyped, hvalid, hcollected⟩
      have hbelow : ∀ child ∈ expression.children,
          exprTyped program typeEnv child = true →
            validateExpression program.structTable fuel child = .ok () →
              Lowers (exprFits child = true) child.type
                (lowerExpression (emitContext program) scope child) :=
        fun child hchild htyped hvalid =>
          ih child hchild ⟨htyped, hvalid, hcollected.child hchild⟩
      cases expression with
      | int type value =>
          rw [exprFits, eq_self, lowerExpression]
          exact .constant rfl
      | bool type value =>
          rw [exprFits, eq_self, lowerExpression]
          exact .constant rfl
      | null type =>
          rw [exprFits, eq_self, lowerExpression]
          exact .constant rfl
      | string type bytes =>
          obtain ⟨globalId, hfind⟩ := hcollected type bytes .self
          simp only [exprTyped, Bool.and_eq_true, decide_eq_true_eq] at htyped
          rw [exprFits, eq_self, lowerExpression]
          refine .ofTyped (.step (.ofOption hfind) fun _ _ => ?_)
          exact (Succeeds.register _).weaken fun _ hvalue => hvalue.trans htyped.1.symm
      | «local» type name =>
          simp only [exprTyped, decide_eq_true_eq] at htyped
          rw [exprFits, eq_self, lowerExpression]
          exact .ofAddress (.step (hbinds.lookup htyped) fun _ hbinding => .pure hbinding)
      | unary type op operand =>
          simp only [exprTyped, Bool.and_eq_true] at htyped
          simp only [validateExpression, Validation.seq] at hvalid
          have hoperand := hbelow operand List.mem_cons_self htyped.1 hvalid.2
          rw [exprFits, lowerExpression]
          exact .ofTyped (.andThen hoperand.value fun _ _ => emitUnary_succeeds _ _ _)
      | binary type op left right =>
          simp only [exprTyped, Bool.and_eq_true] at htyped
          simp only [validateExpression, Validation.seq] at hvalid
          have hleft := hbelow left List.mem_cons_self htyped.1.1 hvalid.2.1
          have hright := hbelow right (by simp [IrExpr.children]) htyped.1.2 hvalid.2.2.1
          have hbranch : op = .and ∨ op = .or → left.type = type := by
            rintro (rfl | rfl)
            · have hop := htyped.2
              simp only [Typing.binaryTyped, Bool.and_eq_true, decide_eq_true_eq] at hop
              rw [hop.1.1, hop.2]
            · have hop := htyped.2
              simp only [Typing.binaryTyped, Bool.and_eq_true, decide_eq_true_eq] at hop
              rw [hop.1.1, hop.2]
          have hboth : op ≠ .and → op ≠ .or →
              Lowers (exprFits left = true ∧ exprFits right = true) type (.ofValue type do
                let leftValue ← (lowerExpression (emitContext program) scope left).value
                let rightValue ← (lowerExpression (emitContext program) scope right).value
                emitBinary (emitContext program).structs type op leftValue rightValue) := by
            intro hand hor
            refine .ofValue (.bind hleft.value fun leftValue hstands => ?_)
            refine .andThen hright.value fun rightValue _ => ?_
            refine emitBinary_succeeds type rightValue hand hor fun hequality => ?_
            obtain htype | hbool := hstands
            · rw [htype]
              exact comparable_of_validated hvalid.2.2.2 hequality
            · rw [hbool]
              exact .bool
          rw [exprFits, Bool.and_eq_true]
          cases op with
          | and =>
              rw [lowerExpression]
              rw [← hbranch (Or.inl rfl)]
              exact .ofTyped (.lowerShortCircuit hleft.value hright.value)
          | or =>
              rw [lowerExpression]
              rw [← hbranch (Or.inr rfl)]
              exact .ofTyped (.lowerShortCircuit hleft.value hright.value)
          | _ =>
              rw [lowerExpression]
              · exact hboth (by simp) (by simp)
              · simp
              · simp
      | ifExpr type condition thenExpr elseExpr =>
          simp only [exprTyped, Bool.and_eq_true] at htyped
          simp only [validateExpression, Validation.seq] at hvalid
          obtain ⟨⟨⟨⟨⟨hcondition, hthen⟩, helse⟩, -⟩, -⟩, -⟩ := htyped
          have hfirst := hbelow condition List.mem_cons_self hcondition hvalid.2.1
          have hsecond := hbelow thenExpr (by simp [IrExpr.children]) hthen hvalid.2.2.1
          have hthird := hbelow elseExpr (by simp [IrExpr.children]) helse hvalid.2.2.2
          rw [exprFits, Bool.and_eq_true, Bool.and_eq_true, lowerExpression]
          exact .ofTyped (.lowerIfExpression hfirst.value hsecond.value hthird.value)
      | call type target moduleName functionName arguments =>
          simp only [exprTyped, Bool.and_eq_true] at htyped
          refine call_lowers hvalid fun argument hargument => ?_
          have hvalids : validateExpressions program.structTable fuel arguments = .ok () :=
            validateExpressions_of_call hvalid
          exact ih argument hargument (Ready.items htyped.1 hvalids
            (fun item hitem => hcollected.child hitem) argument hargument)
      | arrayLiteral type items =>
          simp only [exprTyped, Bool.and_eq_true] at htyped
          simp only [validateExpression, Validation.seq] at hvalid
          have hready := Ready.items htyped.1 hvalid.2 fun item hitem => hcollected.child hitem
          have hitems : AllLower program scope items := fun item hitem =>
            ih item hitem (hready item hitem)
          rw [exprFits, Bool.and_eq_true, lowerExpression]
          refine .ofTyped (.bind (lowerItems_succeeds type hitems 0 none) fun id hid => ?_)
          exact aggregate_succeeds (by simpa using hid)
      | sliceFromArray type base =>
          simp only [exprTyped, Bool.and_eq_true] at htyped
          simp only [validateExpression, Validation.seq] at hvalid
          have hbase := hbelow base List.mem_cons_self htyped.1 hvalid.2
          rw [exprFits, lowerExpression]
          exact .ofTyped (.andThen hbase.address fun _ _ => .step (.result _) fun _ _ =>
            .emitSlice _ _ _)
      | index type base index =>
          simp only [exprTyped, Bool.and_eq_true] at htyped
          simp only [validateExpression, Validation.seq] at hvalid
          have hbase := hbelow base List.mem_cons_self htyped.1.1.1 hvalid.2.1
          have hindex := hbelow index (by simp [IrExpr.children]) htyped.1.1.2 hvalid.2.2
          rw [exprFits, Bool.and_eq_true, lowerExpression]
          refine .ofAddress (.bind hindex.value fun _ _ => ?_)
          split
          · refine .andThen hbase.value fun _ _ => .step (.emitExtractvalue _ _ _) fun _ _ => ?_
            exact .step (.result _) fun _ _ => .pure rfl
          · exact .andThen hbase.address fun _ _ => .step (.result _) fun _ _ => .pure rfl
      | sliceView type base start stop =>
          simp only [exprTyped, Bool.and_eq_true] at htyped
          simp only [validateExpression, Validation.seq] at hvalid
          obtain ⟨⟨⟨hbase, hstart⟩, hstop⟩, -⟩ := htyped
          have hmemStart : ∀ expression, start = some expression →
              expression ∈ (IrExpr.sliceView type base start stop).children := by
            rintro expression rfl
            simp [IrExpr.children]
          have hmemStop : ∀ expression, stop = some expression →
              expression ∈ (IrExpr.sliceView type base start stop).children := by
            rintro expression rfl
            simp [IrExpr.children]
          have hreadyStart := Ready.bound hstart hvalid.2.2.1 fun expression hsome =>
            hcollected.child (hmemStart expression hsome)
          have hreadyStop := Ready.bound hstop hvalid.2.2.2 fun expression hsome =>
            hcollected.child (hmemStop expression hsome)
          exact sliceView_lowers (hbelow base List.mem_cons_self hbase hvalid.2.1)
            (fun expression hsome => ih expression (hmemStart expression hsome)
              (hreadyStart expression hsome))
            (fun expression hsome => ih expression (hmemStop expression hsome)
              (hreadyStop expression hsome))
      | field type base fieldName =>
          have hbase : exprTyped program typeEnv base = true := by
            simp only [exprTyped, Bool.and_eq_true] at htyped
            exact htyped.1
          simp only [validateExpression, Validation.seq] at hvalid
          exact field_lowers htyped (hbelow base List.mem_cons_self hbase hvalid.2)
      | structLiteral type moduleName typeName fields =>
          simp only [exprTyped, Bool.and_eq_true] at htyped
          simp only [validateExpression, Validation.seq] at hvalid
          cases hdecl : program.structTable.find moduleName typeName with
          | none => simp [hdecl] at htyped
          | some decl =>
              simp only [hdecl] at htyped
              have hready := Ready.fields htyped.2 hvalid.2 fun value hvalue =>
                hcollected.child hvalue
              exact structLiteral_lowers hdecl htyped.2 fun value hvalue =>
                ih value hvalue (hready value hvalue)
      | ok type value =>
          simp only [exprTyped, Bool.and_eq_true] at htyped
          simp only [validateExpression, Validation.seq] at hvalid
          have hvalue := hbelow value List.mem_cons_self htyped.1 hvalid.2
          rw [exprFits, lowerExpression]
          exact .ofTyped (.andThen hvalue.value fun _ _ => .step (.result _) fun _ _ => .register _)
      | err type =>
          rw [exprFits, eq_self, lowerExpression]
          exact .ofTyped (.register _)
      | alloc type allocType =>
          rw [exprFits, eq_self, lowerExpression]
          exact .ofTyped (.step (.emitSizeof _) fun _ _ => .register _)
      | zalloc type allocType zoneName =>
          simp only [exprTyped, Bool.and_eq_true, decide_eq_true_eq] at htyped
          rw [exprFits, eq_self, lowerExpression]
          exact .ofTyped (.step (.emitSizeof _) fun _ _ => .step (hbinds.lookup htyped.2)
            fun _ _ => .step (.emitLoad _ _) fun _ _ => .emitCall _ _ _)
      | addr type target =>
          simp only [exprTyped, Bool.and_eq_true] at htyped
          simp only [validateExpression, Validation.seq] at hvalid
          have htarget := hbelow target List.mem_cons_self htyped.1.1 hvalid.2
          rw [exprFits, lowerExpression, if_pos htyped.1.2]
          exact .ofTyped (.andThen htarget.address fun _ _ => .pure rfl)
      | deref type target =>
          simp only [exprTyped, Bool.and_eq_true] at htyped
          simp only [validateExpression, Validation.seq] at hvalid
          have htarget := hbelow target List.mem_cons_self htyped.1 hvalid.2
          rw [exprFits, lowerExpression]
          exact .ofAddress (.andThen htarget.value fun _ _ => .pure rfl)

end

end Llvm

end Cnegative
