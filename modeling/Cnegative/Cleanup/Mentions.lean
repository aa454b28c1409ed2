import Cnegative.Cleanup.Sites

namespace Cnegative

/-! The locals that an expression reads, in the IR and in the source. -/

mutual

/-- The locals whose values an expression reads; a `zalloc` looks its zone up besides. -/
def IrExpr.localReads : IrExpr → List Name
  | .local _ name => [name]
  | .unary _ _ operand | .sliceFromArray _ operand | .field _ operand _ | .ok _ operand
  | .addr _ operand | .deref _ operand => operand.localReads
  | .binary _ _ left right | .index _ left right => left.localReads ++ right.localReads
  | .ifExpr _ condition thenExpr elseExpr =>
      condition.localReads ++ thenExpr.localReads ++ elseExpr.localReads
  | .call _ _ _ _ arguments => itemsLocalReads arguments
  | .arrayLiteral _ items => itemsLocalReads items
  | .sliceView _ base start stop =>
      base.localReads ++ boundLocalReads start ++ boundLocalReads stop
  | .structLiteral _ _ _ fields => fieldsLocalReads fields
  | .int _ _ | .bool _ _ | .string _ _ | .null _ | .err _ | .alloc _ _ | .zalloc _ _ _ => []

def boundLocalReads : Option IrExpr → List Name
  | none => []
  | some bound => bound.localReads

def itemsLocalReads : List IrExpr → List Name
  | [] => []
  | item :: rest => item.localReads ++ itemsLocalReads rest

def fieldsLocalReads : List (Name × IrExpr) → List Name
  | [] => []
  | (_, value) :: rest => value.localReads ++ fieldsLocalReads rest

end

namespace Lower

theorem localReads_wrapArrayAsSlice (expression : IrExpr) (expected : Option TypeRef) :
    (wrapArrayAsSlice expression expected).localReads = expression.localReads := by
  unfold wrapArrayAsSlice
  split
  · split
    · rfl
    · rfl
  · rfl

theorem localReads_arrayLiteralResult (items : List IrExpr) (expected : Option TypeRef) :
    (arrayLiteralResult items expected).localReads = itemsLocalReads items := by
  unfold arrayLiteralResult
  split
  · rfl
  · exact localReads_wrapArrayAsSlice _ _

/-- The locals are among the names, and bound in the scope. -/
def Reads (scope : Scope) (names locals : List Name) : Prop :=
  ∀ name ∈ locals, name ∈ names ∧ (scope.find? name).isSome

theorem Reads.nil {scope : Scope} {names : List Name} : Reads scope names [] := nofun

theorem Reads.append {scope : Scope} {names more locals others : List Name}
    (hfirst : Reads scope names locals) (hsecond : Reads scope more others) :
    Reads scope (names ++ more) (locals ++ others) := by
  intro name hname
  rcases List.mem_append.mp hname with hname | hname
  · exact ⟨List.mem_append_left _ (hfirst name hname).1, (hfirst name hname).2⟩
  · exact ⟨List.mem_append_right _ (hsecond name hname).1, (hsecond name hname).2⟩

theorem mem_replicate_localReads {count : Nat} {item : IrExpr} {name : Name}
    (hname : name ∈ itemsLocalReads (List.replicate count item)) : name ∈ item.localReads := by
  induction count with
  | zero => exact absurd hname List.not_mem_nil
  | succ count ih =>
      rw [List.replicate_succ, itemsLocalReads] at hname
      rcases List.mem_append.mp hname with hname | hname
      · exact hname
      · exact ih hname

/-- A constant lowers to an expression without locals. -/
def Closed (constUse : ConstUse) : Prop :=
  ∀ resolved expected lowered, constUse resolved expected = some lowered → lowered.localReads = []

section

variable {ctx : Context} {constUse : ConstUse} {scope : Scope}

mutual

theorem reads_lowerExpr (hconst : Closed constUse) :
    (expression : Expr) → ∀ (expected : Option TypeRef) (lowered : IrExpr),
      lowerExpr ctx constUse scope expected expression = some lowered →
      Reads scope (exprNames ctx [] expression) lowered.localReads
  | .name name => by
      intro expected lowered hlowered
      rw [lowerExpr] at hlowered
      split at hlowered
      · rename_i found hfound
        rw [← Option.some.inj hlowered, localReads_wrapArrayAsSlice]
        intro other hother
        obtain rfl := List.mem_singleton.mp hother
        exact ⟨List.mem_singleton.mpr rfl, by rw [hfound]; rfl⟩
      · simp only [Option.bind_eq_bind, Option.bind_eq_some_iff] at hlowered
        obtain ⟨resolved, -, huse⟩ := hlowered
        rw [hconst _ _ _ huse]
        exact .nil
  | .field base fieldName => by
      intro expected lowered hlowered
      rw [lowerExpr] at hlowered
      rw [exprNames]
      split at hlowered
      · rename_i resolved hsource
        simp only [Option.bind_eq_bind, Option.bind_eq_some_iff, Option.pure_def,
          Option.some.injEq] at hlowered
        obtain ⟨value, hvalue, rfl⟩ := hlowered
        rw [localReads_wrapArrayAsSlice, hconst _ _ _ hvalue]
        exact .nil
      · rename_i hsource
        simp only [Option.bind_eq_bind, Option.bind_eq_some_iff, Option.pure_def,
          Option.some.injEq] at hlowered
        obtain ⟨value, hvalue, type, -, rfl⟩ := hlowered
        rw [localReads_wrapArrayAsSlice, hsource]
        exact reads_lowerExpr hconst base none value hvalue
  | .int _ | .bool _ | .string _ | .alloc _ => by
      intro expected lowered hlowered
      simp only [lowerExpr, Option.some.injEq] at hlowered
      rw [← hlowered]
      exact .nil
  | .null => by
      intro expected lowered hlowered
      unfold lowerExpr at hlowered
      split at hlowered
      · rw [← Option.some.inj hlowered]
        exact .nil
      · rw [← Option.some.inj hlowered]
        exact .nil
  | .err => by
      intro expected lowered hlowered
      unfold lowerExpr at hlowered
      split at hlowered
      · rw [← Option.some.inj hlowered]
        exact .nil
      · cases hlowered
  | .zalloc _ => by
      intro expected lowered hlowered
      rw [lowerExpr] at hlowered
      split at hlowered
      · cases hlowered
      · rw [← Option.some.inj hlowered]
        exact .nil
  | .unary _ operand => by
      intro expected lowered hlowered
      simp only [lowerExpr, Option.bind_eq_bind, Option.bind_eq_some_iff, Option.pure_def,
        Option.some.injEq] at hlowered
      obtain ⟨value, hvalue, rfl⟩ := hlowered
      rw [localReads_wrapArrayAsSlice]
      have hoperand := reads_lowerExpr hconst operand _ _ hvalue
      exact hoperand
  | .call _ arguments => by
      intro expected lowered hlowered
      simp only [lowerExpr, Option.bind_eq_bind, Option.bind_eq_some_iff, Option.pure_def,
        Option.some.injEq] at hlowered
      obtain ⟨plan, -, values, hvalues, rfl⟩ := hlowered
      rw [localReads_wrapArrayAsSlice]
      exact reads_lowerArguments hconst arguments _ _ hvalues
  | .ifExpr condition thenExpr elseExpr => by
      intro expected lowered hlowered
      simp only [lowerExpr, Option.bind_eq_bind, Option.bind_eq_some_iff, Option.pure_def,
        Option.some.injEq] at hlowered
      obtain ⟨test, htest, first, hfirst, second, hsecond, rfl⟩ := hlowered
      rw [localReads_wrapArrayAsSlice]
      exact ((reads_lowerExpr hconst condition _ _ htest).append
        (reads_lowerExpr hconst thenExpr _ _ hfirst)).append
          (reads_lowerExpr hconst elseExpr _ _ hsecond)
  | .index base index => by
      intro expected lowered hlowered
      simp only [lowerExpr, Option.bind_eq_bind, Option.bind_eq_some_iff, Option.pure_def,
        Option.some.injEq] at hlowered
      obtain ⟨first, hfirst, second, hsecond, type, -, rfl⟩ := hlowered
      rw [localReads_wrapArrayAsSlice]
      exact (reads_lowerExpr hconst base _ _ hfirst).append
        (reads_lowerExpr hconst index _ _ hsecond)
  | .sliceView base start stop => by
      intro expected lowered hlowered
      simp only [lowerExpr, Option.bind_eq_bind, Option.bind_eq_some_iff, Option.pure_def,
        Option.some.injEq] at hlowered
      obtain ⟨first, hfirst, from?, hfrom, to?, hto, type, -, rfl⟩ := hlowered
      rw [localReads_wrapArrayAsSlice]
      refine ((reads_lowerExpr hconst base _ _ hfirst).append ?_).append ?_
      · have hstart := reads_lowerBound hconst start _ hfrom
        cases from? with
        | none => exact .nil
        | some value => exact hstart
      · have hstop := reads_lowerBound hconst stop _ hto
        cases to? with
        | none =>
            split
            · contradiction
            · exact .nil
            · exact .nil
        | some value => exact hstop
  | .ok operand | .addr operand => by
      intro expected lowered hlowered
      simp only [lowerExpr, Option.bind_eq_bind, Option.bind_eq_some_iff, Option.pure_def,
        Option.some.injEq] at hlowered
      obtain ⟨value, hvalue, rfl⟩ := hlowered
      have hoperand := reads_lowerExpr hconst operand _ _ hvalue
      exact hoperand
  | .deref operand => by
      intro expected lowered hlowered
      simp only [lowerExpr, Option.bind_eq_bind, Option.bind_eq_some_iff] at hlowered
      obtain ⟨value, hvalue, hlowered⟩ := hlowered
      split at hlowered
      · rw [← Option.some.inj hlowered]
        have hoperand := reads_lowerExpr hconst operand _ _ hvalue
        exact hoperand
      · cases hlowered
  | .structLiteral _ _ fields => by
      intro expected lowered hlowered
      simp only [lowerExpr, Option.bind_eq_bind, Option.bind_eq_some_iff, Option.pure_def,
        Option.some.injEq] at hlowered
      obtain ⟨resolved, -, values, hvalues, rfl⟩ := hlowered
      exact reads_lowerFieldInits hconst fields _ _ hvalues
  | .binary _ left right => by
      intro expected lowered hlowered
      rw [lowerExpr] at hlowered
      split at hlowered
      · simp only [Option.bind_eq_bind, Option.bind_eq_some_iff, Option.pure_def,
          Option.some.injEq] at hlowered
        obtain ⟨second, hsecond, first, hfirst, rfl⟩ := hlowered
        exact (reads_lowerExpr hconst left _ _ hfirst).append
          (reads_lowerExpr hconst right _ _ hsecond)
      · simp only [Option.bind_eq_bind, Option.bind_eq_some_iff, Option.pure_def,
          Option.some.injEq] at hlowered
        obtain ⟨first, hfirst, second, hsecond, rfl⟩ := hlowered
        exact (reads_lowerExpr hconst left _ _ hfirst).append
          (reads_lowerExpr hconst right _ _ hsecond)
  | .arrayLiteral items repeatCount => by
      intro expected lowered hlowered
      unfold lowerExpr at hlowered
      unfold exprNames
      split at hlowered
      · simp only [Option.bind_eq_bind, Option.bind_eq_some_iff, Option.pure_def,
          Option.some.injEq] at hlowered
        obtain ⟨values, hvalues, rfl⟩ := hlowered
        rw [localReads_arrayLiteralResult]
        exact reads_lowerItems hconst items _ _ hvalues
      · rw [← Option.some.inj hlowered, localReads_arrayLiteralResult]
        exact .nil
      · simp only [Option.bind_eq_bind, Option.bind_eq_some_iff, Option.pure_def,
          Option.some.injEq] at hlowered
        obtain ⟨value, hvalue, rfl⟩ := hlowered
        rw [localReads_arrayLiteralResult]
        exact fun name hname =>
          reads_lowerFirst hconst items _ _ hvalue name (mem_replicate_localReads hname)

theorem reads_lowerBound (hconst : Closed constUse) :
    (bound : Option Expr) → ∀ (lowered : Option IrExpr),
      lowerBound ctx constUse scope bound = some lowered →
      Reads scope (boundNames ctx [] bound) (boundLocalReads lowered)
  | none => by
      intro lowered hlowered
      obtain rfl := Option.some.inj hlowered
      exact .nil
  | some bound => by
      intro lowered hlowered
      simp only [lowerBound, Option.map_eq_some_iff] at hlowered
      obtain ⟨value, hvalue, rfl⟩ := hlowered
      exact reads_lowerExpr hconst bound _ _ hvalue

theorem reads_lowerItems (hconst : Closed constUse) :
    (items : List Expr) → ∀ (expected : Option TypeRef) (lowered : List IrExpr),
      lowerItems ctx constUse scope expected items = some lowered →
      Reads scope (itemsNames ctx [] items) (itemsLocalReads lowered)
  | [] => by
      intro expected lowered hlowered
      obtain rfl := Option.some.inj hlowered
      exact .nil
  | item :: rest => by
      intro expected lowered hlowered
      simp only [lowerItems, Option.bind_eq_bind, Option.bind_eq_some_iff, Option.pure_def,
        Option.some.injEq] at hlowered
      obtain ⟨first, hfirst, remaining, hremaining, rfl⟩ := hlowered
      exact (reads_lowerExpr hconst item _ _ hfirst).append
        (reads_lowerItems hconst rest _ _ hremaining)

theorem reads_lowerFirst (hconst : Closed constUse) :
    (items : List Expr) → ∀ (expected : Option TypeRef) (lowered : IrExpr),
      lowerFirst ctx constUse scope expected items = some lowered →
      Reads scope (firstNames ctx [] items) lowered.localReads
  | [] => nofun
  | item :: _ => fun expected lowered hlowered =>
      reads_lowerExpr hconst item expected lowered hlowered

theorem reads_lowerArguments (hconst : Closed constUse) :
    (arguments : List Expr) → ∀ (hints : List TypeRef) (lowered : List IrExpr),
      lowerArguments ctx constUse scope hints arguments = some lowered →
      Reads scope (itemsNames ctx [] arguments) (itemsLocalReads lowered)
  | [] => by
      intro hints lowered hlowered
      simp only [lowerArguments, Option.some.injEq] at hlowered
      rw [← hlowered]
      exact .nil
  | argument :: rest => by
      intro hints lowered hlowered
      simp only [lowerArguments, Option.bind_eq_bind, Option.bind_eq_some_iff, Option.pure_def,
        Option.some.injEq] at hlowered
      obtain ⟨first, hfirst, remaining, hremaining, rfl⟩ := hlowered
      exact (reads_lowerExpr hconst argument _ _ hfirst).append
        (reads_lowerArguments hconst rest _ _ hremaining)

theorem reads_lowerFieldInits (hconst : Closed constUse) :
    (fields : List (Name × Expr)) → ∀ (resolved : Checker.Resolved StructDecl)
      (lowered : List (Name × IrExpr)),
      lowerFieldInits ctx constUse scope resolved fields = some lowered →
      Reads scope (fieldsNames ctx [] fields) (fieldsLocalReads lowered)
  | [] => by
      intro resolved lowered hlowered
      obtain rfl := Option.some.inj hlowered
      exact .nil
  | (fieldName, value) :: rest => by
      intro resolved lowered hlowered
      simp only [lowerFieldInits, Option.bind_eq_bind, Option.bind_eq_some_iff, Option.pure_def,
        Option.some.injEq] at hlowered
      obtain ⟨field, -, first, hfirst, remaining, hremaining, rfl⟩ := hlowered
      exact (reads_lowerExpr hconst value _ _ hfirst).append
        (reads_lowerFieldInits hconst rest _ _ hremaining)

end

end

end Lower

end Cnegative
