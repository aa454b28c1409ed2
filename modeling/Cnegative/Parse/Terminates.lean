import Cnegative.Parse.Expr

namespace Cnegative

namespace Parse

/-! Types and expressions are read to an end.  `bound` is how many tokens are left where a
construct starts; its recursive calls are made with fewer. -/

/-- A construct takes a token just where one of its first tokens stands. -/
def Reads {α : Type} (starts : TokenKind → Bool) (before : ParserState) (value : Option α)
    (after : ParserState) : Prop :=
  (starts before.current.kind = true ∧ after.left < before.left) ∨
    (starts before.current.kind = false ∧ value = none ∧ Stays before after)

theorem Reads.takes {α : Type} {starts : TokenKind → Bool} {before : ParserState}
    {value : Option α} {after : ParserState} (hreads : Reads starts before value after) :
    Takes before value after := by
  obtain ⟨-, hless⟩ | ⟨-, rfl, hstays⟩ := hreads
  · exact .of_lt hless value
  · exact .none (Nat.le_of_eq hstays.left)

def Level {α : Type} (stall : Prop) (bound : Nat) (starts : TokenKind → Bool)
    (run : Parser (Option α)) : Prop :=
  ∀ state, state.left ≤ bound → Settles stall run state (Reads starts state)

def Below {α : Type} (stall : Prop) (bound : Nat) (run : Parser (Option α)) : Prop :=
  ∀ state, state.left < bound → Settles stall run state (Takes state)

theorem settles_withTokens {α : Type} {stall : Prop} (run : Nat → Parser α)
    {post : ParserState → α → ParserState → Prop}
    (hrun : ∀ fuel state, state.left < fuel → Settles stall (run fuel) state (post state))
    (state : ParserState) :
    Settles stall (fun state => run (state.left + 1) state) state (post state) :=
  hrun (state.left + 1) state (Nat.lt_succ_self _)

section Types

variable {stall : Prop} {state : ParserState} {bound : Nat} {expr : Parser (Option ExprTree)}

/-- The tokens at which a type takes at least one of them. -/
def startsType (kind : TokenKind) : Bool :=
  (typeAtom kind).isSome || kind == .identifier || kind == .result || kind == .ptr ||
    kind == .slice

theorem settles_parseTypeAtom :
    Settles stall parseTypeAtom state fun type after => Takes state type after ∧
      ((typeAtom state.current.kind).isSome ∨ state.current.kind = .identifier →
        after.left < state.left) ∧
      (¬ ((typeAtom state.current.kind).isSome ∨ state.current.kind = .identifier) →
        type = none ∧ Stays state after) := by
  apply settles_current_bind
  cases hatom : typeAtom state.current.kind with
  | some atom =>
      have hkind : state.current.kind ≠ .eof := by
        intro hend
        rw [hend] at hatom
        cases hatom
      refine settles_advance_bind hkind fun after hless => ?_
      exact Settles.pure ⟨.of_lt hless _, fun _ => hless, fun hno => absurd (Or.inl rfl) hno⟩
  | none =>
      refine settles_accept_bind (by decide) (fun hkind after hless => ?_) (fun hkind => ?_)
      · have hno : ∀ type : Option TypeTree, ∀ last : ParserState,
            ¬ ((none : Option TypeAtom).isSome ∨ state.current.kind = .identifier) →
              type = none ∧ Stays state last := fun _ _ hno => absurd (Or.inr hkind) hno
        refine settles_accept_bind (by decide) (fun _ behind hbehind => ?_) (fun _ => ?_)
        · refine (takes_consume (by decide) _).bind fun token last hlast => ?_
          have hlastLess : last.left < state.left := by have := hlast.1; omega
          cases token with
          | none => exact Settles.pure ⟨.of_lt hlastLess _, fun _ => hlastLess, hno _ _⟩
          | some found => exact Settles.pure ⟨.of_lt hlastLess _, fun _ => hlastLess, hno _ _⟩
        · exact Settles.pure ⟨.of_lt hless _, fun _ => hless, hno _ _⟩
      · refine settles_emit_bind fun after hstays => ?_
        refine Settles.pure ⟨.none (Nat.le_of_eq hstays.left), fun hstart => ?_,
          fun _ => ⟨rfl, hstays⟩⟩
        rcases hstart with hsome | hsame
        · cases hsome
        · exact absurd hsame hkind

theorem startsType_of_prefix {token next : Token} {kind : TypePrefix}
    (hprefixed : typePrefix token next = some kind) :
    startsType token.kind = true ∧ token.kind ≠ .eof := by
  unfold typePrefix at hprefixed
  split at hprefixed
  · rename_i hkind
    simp [startsType, hkind]
  · rename_i hkind
    simp [startsType, hkind]
  · rename_i hkind
    simp [startsType, hkind]
  · rename_i hkind
    simp [startsType, hkind]
  · cases hprefixed

theorem settles_parsePrefixes (room : Nat) (prefixes : List (TypePrefix × Nat)) :
    ∀ state, Settles stall (parsePrefixes room prefixes) state fun found after =>
      (found = prefixes ∧ after = state ∧
        (room ≠ 0 → typePrefix state.current (state.peek 1) = none)) ∨
      (after.left < state.left ∧ startsType state.current.kind = true) := by
  induction room generalizing prefixes with
  | zero => exact fun state => Settles.pure (Or.inl ⟨rfl, rfl, fun hzero => absurd rfl hzero⟩)
  | succ room ih =>
      intro state
      apply settles_current_bind
      apply settles_peek_bind
      cases hprefixed : typePrefix state.current (state.peek 1) with
      | none => exact Settles.pure (Or.inl ⟨rfl, rfl, fun _ => rfl⟩)
      | some kind =>
          obtain ⟨hstarts, hkind⟩ := startsType_of_prefix hprefixed
          refine settles_advance_bind hkind fun after hless => ?_
          refine (ih _ after).weaken fun found last hlast => Or.inr ⟨?_, hstarts⟩
          rcases hlast with ⟨-, rfl, -⟩ | ⟨hlater, -⟩
          · exact hless
          · exact Nat.lt_trans hlater hless

theorem rounds_sizeRound (hexpr : Below stall bound expr) (type : TypeTree) (state : ParserState)
    (hbound : state.left ≤ bound) : Settles stall (sizeRound expr type) state (Rounds state) := by
  refine settles_accept_bind (by decide) (fun _ after hless => ?_) (fun _ => ?_)
  · refine (hexpr after (by omega)).bind fun size behind hsize => ?_
    have hbehind := hsize.1
    refine (takes_consume (by decide) _).bind fun _ last htoken => ?_
    have hlast := htoken.1
    cases size with
    | none =>
        refine Settles.pure ?_
        change last.left ≤ state.left
        omega
    | some size =>
        refine Settles.pure ?_
        change last.left < state.left
        omega
  · exact Settles.pure (Nat.le_refl _)

theorem settles_parseTypeBody (hexpr : Below stall bound expr)
    (prefixes : List (TypePrefix × Nat)) (hbound : state.left ≤ bound) :
    Settles stall (parseTypeBody expr prefixes) state fun type after => Takes state type after ∧
      ((typeAtom state.current.kind).isSome ∨ state.current.kind = .identifier →
        after.left < state.left) ∧
      (¬ ((typeAtom state.current.kind).isSome ∨ state.current.kind = .identifier) →
        type = none ∧ Stays state after) := by
  refine settles_parseTypeAtom.bind fun atom after hafter => ?_
  obtain ⟨htakes, hstart, hother⟩ := hafter
  cases atom with
  | none => exact Settles.pure ⟨.none htakes.1, hstart, fun hno => ⟨rfl, (hother hno).2⟩⟩
  | some atom =>
      have hless := htakes.2 rfl
      refine (settles_loopTokens fun carried last hlast =>
        rounds_sizeRound hexpr carried last (by omega)).bind fun type last hlast => ?_
      have hlastLess : last.left < state.left := Nat.lt_of_le_of_lt hlast hless
      exact Settles.pure ⟨.of_lt hlastLess _, fun _ => hlastLess,
        fun hno => absurd (hother hno).1 (by simp)⟩

theorem startsType_iff {kind : TokenKind} : startsType kind = true ↔
    ((typeAtom kind).isSome ∨ kind = .identifier) ∨
      kind = .result ∨ kind = .ptr ∨ kind = .slice := by
  cases kind <;> decide

/-- A type is read to an end, and takes a token just where one starts. -/
theorem settles_parseType (hexpr : Below stall bound expr) (hbound : state.left ≤ bound) :
    Settles stall (parseType expr) state fun type after => Takes state type after ∧
      (startsType state.current.kind = true → after.left < state.left) ∧
      (startsType state.current.kind = false → type = none ∧ Stays state after) := by
  refine (settles_parsePrefixes 32 [] state).bind fun prefixes after hafter => ?_
  apply settles_current_bind
  rcases hafter with ⟨rfl, rfl, hnone⟩ | ⟨hless, hstarts⟩
  · refine (settles_parseTypeBody hexpr [] hbound).weaken fun type last hlast => ?_
    obtain ⟨htakes, hstart, hother⟩ := hlast
    have hprefixed := hnone (by decide)
    refine ⟨htakes, fun hkind => ?_, fun hkind => hother fun hatom => ?_⟩
    · rcases startsType_iff.mp hkind with hatom | hresult | hptr | hslice
      · exact hstart hatom
      · simp [typePrefix, hresult] at hprefixed
      · simp [typePrefix, hptr] at hprefixed
      · simp [typePrefix, hslice] at hprefixed
    · rw [startsType_iff.mpr (Or.inl hatom)] at hkind
      cases hkind
  · have hno : ∀ type : Option TypeTree, ∀ last : ParserState,
        startsType state.current.kind = false → type = none ∧ Stays state last := by
      intro type last hother
      rw [hstarts] at hother
      cases hother
    cases prefixes with
    | nil =>
        refine (settles_parseTypeBody hexpr [] (by omega)).weaken fun type last hlast => ?_
        have hlastLess : last.left < state.left := Nat.lt_of_le_of_lt hlast.1.1 hless
        exact ⟨.of_lt hlastLess _, fun _ => hlastLess, hno _ _⟩
    | cons newest outer =>
        obtain ⟨kind, offset⟩ := newest
        dsimp only
        split
        · refine (settles_parseTypeBody hexpr _ (by omega)).weaken fun type last hlast => ?_
          have hlastLess : last.left < state.left := Nat.lt_of_le_of_lt hlast.1.1 hless
          exact ⟨.of_lt hlastLess _, fun _ => hlastLess, hno _ _⟩
        · refine settles_emit_bind fun last hstays => ?_
          have hlastLess : last.left < state.left := by
            rw [hstays.left]
            exact hless
          exact Settles.pure ⟨.of_lt hlastLess _, fun _ => hlastLess, hno _ _⟩

end Types

section Lists

variable {stall : Prop} {bound : Nat} {expr : Parser (Option ExprTree)}

theorem rounds_itemRound (hexpr : Below stall bound expr) (items : List ExprTree)
    (state : ParserState) (hbound : state.left ≤ bound) :
    Settles stall (itemRound expr items) state (Rounds state) := by
  refine settles_accept_bind (by decide) (fun _ after hless => ?_) (fun _ => ?_)
  · refine (hexpr after (by omega)).bind fun item last hitem => ?_
    have hlast := hitem.1
    cases item with
    | none =>
        refine Settles.pure ?_
        change last.left ≤ state.left
        omega
    | some item =>
        refine Settles.pure ?_
        change last.left < state.left
        omega
  · exact Settles.pure (Nat.le_refl _)

theorem shrinks_items (hexpr : Below stall bound expr) (first : List ExprTree)
    (state : ParserState) (hbound : state.left ≤ bound) :
    Settles stall (loopTokens (itemRound expr) first) state (Shrinks state) :=
  settles_loopTokens fun items last hlast => rounds_itemRound hexpr items last (by omega)

theorem shrinks_parseArrayLiteral (hexpr : Below stall bound expr) (offset : Nat)
    (state : ParserState) (hbound : state.left < bound) :
    Settles stall (parseArrayLiteral expr offset) state (Shrinks state) := by
  apply settles_check_bind
  split
  · refine (takes_consume (by decide) _).bind fun _ last hlast => ?_
    exact Settles.pure hlast.1
  · refine (hexpr state hbound).bind fun first after hafter => ?_
    cases first with
    | none => exact Settles.pure hafter.1
    | some first =>
        have hless := hafter.2 rfl
        refine settles_accept_bind (by decide) (fun _ behind hbehind => ?_) (fun _ => ?_)
        · refine (hexpr behind (by omega)).bind fun count last hcount => ?_
          have hlast := hcount.1
          cases count with
          | none =>
              refine Settles.pure ?_
              change last.left ≤ state.left
              omega
          | some count =>
              refine (takes_consume (by decide) _).bind fun _ final htoken => ?_
              have hfinal := htoken.1
              refine Settles.pure ?_
              change final.left ≤ state.left
              omega
        · refine (shrinks_items hexpr [first] after (by omega)).bind fun items last hitems => ?_
          have hlast : last.left ≤ after.left := hitems
          split
          · refine (takes_consume (by decide) _).bind fun _ final htoken => ?_
            have hfinal := htoken.1
            refine Settles.pure ?_
            change final.left ≤ state.left
            omega
          · refine Settles.pure ?_
            change last.left ≤ state.left
            omega

theorem rounds_initRound (hexpr : Below stall bound expr) (fields : List (Text × ExprTree))
    (state : ParserState) (hbound : state.left < bound) :
    Settles stall (initRound expr fields) state (Rounds state) := by
  apply settles_check_bind
  split
  · exact Settles.pure (Nat.le_refl _)
  · apply settles_check_bind
    split
    · exact Settles.pure (Nat.le_refl _)
    · refine (takes_consume (by decide) _).bind fun fieldName after hname => ?_
      have hafter := hname.1
      refine (takes_consume (by decide) _).bind fun _ behind hcolon => ?_
      have hbehind := hcolon.1
      refine (hexpr behind (by omega)).bind fun value last hvalue => ?_
      have hlast := hvalue.1
      cases fieldName with
      | none =>
          refine Settles.pure ?_
          change last.left ≤ state.left
          omega
      | some fieldName =>
          have hless := hname.2 rfl
          cases value with
          | none =>
              refine Settles.pure ?_
              change last.left ≤ state.left
              omega
          | some value =>
              refine settles_accept_bind (by decide) (fun _ final hfinal => ?_) (fun _ => ?_)
              · refine Settles.pure ?_
                change final.left < state.left
                omega
              · refine Settles.pure ?_
                change last.left < state.left
                omega

theorem shrinks_parseStructLiteral (hexpr : Below stall bound expr) (moduleName : Text)
    (typeToken : Token) (state : ParserState) (hbound : state.left < bound) :
    Settles stall (parseStructLiteral expr moduleName typeToken) state (Shrinks state) := by
  refine (takes_consume (by decide) _).bind fun _ after htoken => ?_
  have hafter := htoken.1
  refine (settles_loopTokens fun fields last hlast =>
    rounds_initRound hexpr fields last (by omega)).bind fun fields behind hfields => ?_
  have hbehind : behind.left ≤ after.left := hfields
  refine (takes_consume (by decide) _).bind fun _ last hclose => ?_
  have hlast := hclose.1
  refine Settles.pure ?_
  change last.left ≤ state.left
  omega

theorem takes_parseIfBranch (hexpr : Below stall bound expr) (message : String)
    (state : ParserState) (hbound : state.left ≤ bound) :
    Settles stall (parseIfBranch expr message) state (Takes state) := by
  refine settles_consume_bind (by decide) (fun _ token after hless => ?_)
    (fun _ after hstays => ?_)
  · refine (hexpr after (by omega)).bind fun expression behind hexpression => ?_
    have hbehind := hexpression.1
    refine (takes_consume (by decide) _).bind fun _ last hclose => ?_
    have hlast := hclose.1
    exact Settles.pure (.of_lt (by omega) _)
  · exact Settles.pure (.none (Nat.le_of_eq hstays.left))

theorem takes_parseIfExpression (hexpr : Below stall bound expr) (fuel : Nat) :
    ∀ offset state, state.left < bound → state.left < fuel →
      Settles stall (parseIfExpression expr fuel offset) state (Takes state) := by
  induction fuel with
  | zero => exact fun _ _ _ hfuel => absurd hfuel (Nat.not_lt_zero _)
  | succ fuel ih =>
      intro offset state hbound hfuel
      refine (hexpr state hbound).bind fun condition after hcondition => ?_
      have hafter := hcondition.1
      refine (takes_parseIfBranch hexpr _ after (by omega)).bind fun thenExpr behind hthen => ?_
      have hbehind := hthen.1
      cases condition with
      | none => exact Settles.pure (.none (by omega))
      | some condition =>
          have hless := hcondition.2 rfl
          cases thenExpr with
          | none => exact Settles.pure (.none (by omega))
          | some thenExpr =>
              refine settles_accept_bind (by decide) (fun _ later hlater => ?_) (fun _ => ?_)
              · apply settles_check_bind
                split
                · rename_i hif
                  have hkind : later.current.kind ≠ .eof := by
                    rw [beq_iff_eq.mp hif]
                    decide
                  refine settles_advance_bind hkind fun nested hnested => ?_
                  refine (ih _ nested (by omega) (by omega)).bind fun elseExpr last helse => ?_
                  have hlast := helse.1
                  exact Settles.pure (.of_lt (by omega) _)
                · refine (takes_parseIfBranch hexpr _ later (by omega)).bind
                    fun elseExpr last helse => ?_
                  have hlast := helse.1
                  exact Settles.pure (.of_lt (by omega) _)
              · apply settles_current_bind
                refine settles_emit_bind fun last hstays => ?_
                have hlast := hstays.left
                exact Settles.pure (.none (by omega))

end Lists

section Primary

variable {stall : Prop} {bound : Nat} {expr : Parser (Option ExprTree)}

theorem less_parseNamed (hexpr : Below stall bound expr) (token : Token) (state : ParserState)
    (hbound : state.left ≤ bound) (hkind : state.current.kind = .identifier) :
    Settles stall (parseNamed expr token) state fun _ after => after.left < state.left := by
  have hopen : state.current.kind ≠ .eof := by
    rw [hkind]
    decide
  unfold Settles parseNamed
  refine settles_advance_bind hopen fun after hless => ?_
  split
  · refine settles_advance.bind fun _ behind hdot => ?_
    have hbehind := hdot.1
    refine (takes_consume (by decide) _).bind fun typeToken last htype => ?_
    have hlast := htype.1
    cases typeToken with
    | none =>
        refine Settles.pure ?_
        omega
    | some typeToken =>
        refine (shrinks_parseStructLiteral hexpr _ typeToken last (by omega)).bind
          fun literal final hliteral => ?_
        have hfinal : final.left ≤ last.left := hliteral
        refine Settles.pure ?_
        omega
  · split
    · refine (shrinks_parseStructLiteral hexpr _ token after (by omega)).bind
        fun literal final hliteral => ?_
      have hfinal : final.left ≤ after.left := hliteral
      refine Settles.pure ?_
      omega
    · exact Settles.pure hless

theorem less_advance {α : Type} {state : ParserState} {value : α}
    (hkind : state.current.kind ≠ .eof) :
    Settles stall (do let _ ← advance; return some value) state
      fun _ after => after.left < state.left :=
  settles_advance_bind hkind fun _ hless => Settles.pure hless

theorem less_allocated (hexpr : Below stall bound expr) (make : TypeTree → ExprTree)
    (state : ParserState) (hbound : state.left ≤ bound) (hkind : state.current.kind ≠ .eof) :
    Settles stall (do
      let _ ← advance
      let type ← parseType expr
      return type.map make) state fun _ after => after.left < state.left := by
  refine settles_advance_bind hkind fun after hless => ?_
  refine (settles_parseType hexpr (by omega)).bind fun type last htype => ?_
  have hlast := htype.1.1
  refine Settles.pure ?_
  omega

/-- The tokens at which `cn_parse_primary` takes at least one of them. -/
def startsPrimary (kind : TokenKind) : Bool :=
  [.intLiteral, .true, .false, .stringLiteral, .null, .err, .alloc, .zalloc, .if, .identifier,
    .lbracket, .lparen].contains kind

def startsUnary (kind : TokenKind) : Bool :=
  (unaryTree kind).isSome || startsPrimary kind

/-- The tokens at which an expression takes at least one of them. -/
def startsExpression (kind : TokenKind) : Bool :=
  kind == .ok || startsUnary kind

theorem reads_parsePrimary (hexpr : Below stall bound expr) :
    Level stall bound startsPrimary (parsePrimary expr) := by
  intro state hbound
  apply settles_current_bind
  have htook : ∀ {run : Parser (Option ExprTree)}, startsPrimary state.current.kind = true →
      (Settles stall run state fun _ after => after.left < state.left) →
      Settles stall run state (Reads startsPrimary state) :=
    fun hstarts hrun => hrun.weaken fun _ _ hless => Or.inl ⟨hstarts, hless⟩
  split
  all_goals first
    | (rename_i hkind
       have hopen : state.current.kind ≠ .eof := by
         rw [hkind]
         decide
       refine htook (by rw [hkind]; decide) ?_)
    | skip
  · exact less_advance hopen
  · exact less_advance hopen
  · exact less_advance hopen
  · exact less_advance hopen
  · exact less_advance hopen
  · exact less_advance hopen
  · exact less_allocated hexpr _ state hbound hopen
  · exact less_allocated hexpr _ state hbound hopen
  · refine settles_advance_bind hopen fun after hless => ?_
    refine (takes_parseIfExpression hexpr _ _ after (by omega) (Nat.lt_succ_self _)).weaken
      fun expression last hlast => ?_
    exact Nat.lt_of_le_of_lt hlast.1 hless
  · exact less_parseNamed hexpr _ state hbound hkind
  · refine settles_advance_bind hopen fun after hless => ?_
    refine (shrinks_parseArrayLiteral hexpr _ after (by omega)).bind fun literal last hlast => ?_
    exact Settles.pure (Nat.lt_of_le_of_lt hlast hless)
  · refine settles_advance_bind hopen fun after hless => ?_
    refine (hexpr after (by omega)).bind fun expression behind hexpression => ?_
    have hbehind := hexpression.1
    refine (takes_consume (by decide) _).bind fun _ last hclose => ?_
    have hlast := hclose.1
    refine Settles.pure ?_
    omega
  · refine settles_emit_bind fun after hstays => ?_
    refine Settles.pure (Or.inr ⟨?_, rfl, hstays⟩)
    simp_all [startsPrimary]

theorem takes_consumeFieldName (state : ParserState) :
    Settles stall consumeFieldName state (Takes state) := by
  apply settles_check_bind
  split
  · rename_i hname
    have hkind : state.current.kind ≠ .eof := by
      rw [beq_iff_eq.mp hname]
      decide
    exact settles_advance_bind hkind fun _ hless => Settles.pure (.of_lt hless _)
  · apply settles_check_bind
    split
    · rename_i hname
      have hkind : state.current.kind ≠ .eof := by
        rw [beq_iff_eq.mp hname]
        decide
      exact settles_advance_bind hkind fun _ hless => Settles.pure (.of_lt hless _)
    · apply settles_current_bind
      refine settles_emit_bind fun after hstays => ?_
      exact Settles.pure (.none (Nat.le_of_eq hstays.left))

theorem shrinks_bracketRest (hexpr : Below stall bound expr) (base : ExprTree)
    (start : Option ExprTree) (state : ParserState) (hbound : state.left ≤ bound) :
    Settles stall (bracketRest expr base start) state (Shrinks state) := by
  refine settles_accept_bind (by decide) (fun _ after hless => ?_) (fun _ => ?_)
  · apply settles_check_bind
    split
    · refine (takes_consume (by decide) _).bind fun _ last hclose => ?_
      have hlast := hclose.1
      refine Settles.pure ?_
      change last.left ≤ state.left
      omega
    · refine (hexpr after (by omega)).bind fun stop behind hstop => ?_
      have hbehind := hstop.1
      cases stop with
      | none =>
          refine Settles.pure ?_
          change behind.left ≤ state.left
          omega
      | some stop =>
          refine (takes_consume (by decide) _).bind fun _ last hclose => ?_
          have hlast := hclose.1
          refine Settles.pure ?_
          change last.left ≤ state.left
          omega
  · refine (takes_consume (by decide) _).bind fun _ after hclose => ?_
    have hafter := hclose.1
    cases start with
    | none =>
        refine settles_emit_bind fun last hstays => ?_
        have hlast := hstays.left
        refine Settles.pure ?_
        change last.left ≤ state.left
        omega
    | some index => exact Settles.pure hafter

theorem shrinks_callRest (hexpr : Below stall bound expr) (callee : ExprTree)
    (state : ParserState) (hbound : state.left < bound) :
    Settles stall (callRest expr callee) state (Shrinks state) := by
  apply settles_check_bind
  split
  · refine (takes_consume (by decide) _).bind fun _ last hclose => ?_
    exact Settles.pure hclose.1
  · refine (hexpr state hbound).bind fun first after hfirst => ?_
    have hafter := hfirst.1
    cases first with
    | none => exact Settles.pure hafter
    | some first =>
        refine (shrinks_items hexpr [first] after (by omega)).bind fun arguments last hitems => ?_
        have hlast : last.left ≤ after.left := hitems
        split
        · refine (takes_consume (by decide) _).bind fun _ final hclose => ?_
          have hfinal := hclose.1
          refine Settles.pure ?_
          change final.left ≤ state.left
          omega
        · refine Settles.pure ?_
          change last.left ≤ state.left
          omega

theorem rounds_postfixRound (hexpr : Below stall bound expr) (base : ExprTree)
    (state : ParserState) (hbound : state.left ≤ bound) :
    Settles stall (postfixRound expr base) state (Rounds state) := by
  have hround : ∀ (after : ParserState) (round : ExprTree ⊕ ExprTree) (last : ParserState),
      after.left < state.left → last.left ≤ after.left → Rounds state round last := by
    intro after round last hless hlast
    cases round with
    | inl next => exact Nat.lt_of_le_of_lt hlast hless
    | inr result => exact Nat.le_of_lt (Nat.lt_of_le_of_lt hlast hless)
  refine settles_accept_bind (by decide) (fun _ after hless => ?_) (fun _ => ?_)
  · exact (shrinks_callRest hexpr base after (by omega)).weaken fun round last hlast =>
      hround after round last hless hlast
  · refine settles_accept_bind (by decide) (fun _ after hless => ?_) (fun _ => ?_)
    · apply settles_check_bind
      split
      · exact (shrinks_bracketRest hexpr base none after (by omega)).weaken
          fun round last hlast => hround after round last hless hlast
      · apply settles_check_bind
        split
        · exact (shrinks_bracketRest hexpr base none after (by omega)).weaken
            fun round last hlast => hround after round last hless hlast
        · refine (hexpr after (by omega)).bind fun start behind hstart => ?_
          have hbehind := hstart.1
          cases start with
          | none => exact Settles.pure (hround after _ behind hless hbehind)
          | some start =>
              exact (shrinks_bracketRest hexpr base (some start) behind (by omega)).weaken
                fun round last hlast => hround after round last hless (Nat.le_trans hlast hbehind)
    · refine settles_accept_bind (by decide) (fun _ after hless => ?_) (fun _ => ?_)
      · refine (takes_consumeFieldName after).bind fun fieldName last hname => ?_
        cases fieldName with
        | none => exact Settles.pure (hround after _ last hless hname.1)
        | some fieldName => exact Settles.pure (hround after _ last hless hname.1)
      · exact Settles.pure (Nat.le_refl _)

theorem reads_parsePostfix (hexpr : Below stall bound expr) :
    Level stall bound startsPrimary (parsePostfix expr) := by
  intro state hbound
  refine (reads_parsePrimary hexpr state hbound).bind fun first after hfirst => ?_
  have hafter := hfirst.takes.1
  cases first with
  | none => exact Settles.pure hfirst
  | some first =>
      obtain ⟨hstarts, hless⟩ | ⟨-, hnone, -⟩ := hfirst
      · refine (settles_loopTokens fun base last hlast =>
          rounds_postfixRound hexpr base last (by omega)).bind fun expression last hlast => ?_
        exact Settles.pure (Or.inl ⟨hstarts, Nat.lt_of_le_of_lt hlast hless⟩)
      · cases hnone

theorem reads_parseUnaryWith (hexpr : Below stall bound expr) (fuel : Nat) :
    ∀ state, state.left ≤ bound → state.left < fuel →
      Settles stall (parseUnaryWith expr fuel) state (Reads startsUnary state) := by
  induction fuel with
  | zero => exact fun _ _ hfuel => absurd hfuel (Nat.not_lt_zero _)
  | succ fuel ih =>
      intro state hbound hfuel
      apply settles_current_bind
      cases hop : unaryTree state.current.kind with
      | none =>
          have hsame : startsUnary state.current.kind = startsPrimary state.current.kind := by
            simp [startsUnary, hop]
          refine (reads_parsePostfix hexpr state hbound).weaken fun value after hreads => ?_
          unfold Reads at *
          rw [hsame]
          exact hreads
      | some op =>
          have hkind : state.current.kind ≠ .eof := by
            intro hend
            rw [hend] at hop
            cases hop
          refine settles_advance_bind hkind fun after hless => ?_
          refine (ih after (by omega) (by omega)).bind fun operand last hoperand => ?_
          have hstarts : startsUnary state.current.kind = true := by simp [startsUnary, hop]
          exact Settles.pure (Or.inl ⟨hstarts, Nat.lt_of_le_of_lt hoperand.takes.1 hless⟩)

theorem reads_parseUnary (hexpr : Below stall bound expr) :
    Level stall bound startsUnary (parseUnary expr) := by
  intro state hbound
  have hwith := reads_parseUnaryWith hexpr (state.left + 1) state hbound (Nat.lt_succ_self _)
  unfold Settles at hwith ⊢
  exact hwith

theorem reads_parseBinaryChain {sub : Parser (Option ExprTree)} {starts : TokenKind → Bool}
    (hsub : Level stall bound starts sub) {kinds : List TokenKind} (hkinds : .eof ∉ kinds) :
    Level stall bound starts (parseBinaryChain sub kinds) := by
  intro state hbound
  refine (hsub state hbound).bind fun first after hfirst => ?_
  have hafter := hfirst.takes.1
  cases first with
  | none => exact Settles.pure hfirst
  | some first =>
      have hround : ∀ left last, last.left ≤ after.left →
          Settles stall (chainRound sub kinds left) last (Rounds last) := by
        intro left last hlast
        apply settles_current_bind
        split
        · rename_i hcontains
          have hkind : last.current.kind ≠ .eof := by
            intro hend
            rw [hend] at hcontains
            exact hkinds (by simpa using hcontains)
          refine settles_advance_bind hkind fun behind hbehind => ?_
          refine (hsub behind (by omega)).bind fun right final hright => ?_
          have hfinal := hright.takes.1
          cases right with
          | none =>
              refine Settles.pure ?_
              change final.left ≤ last.left
              omega
          | some right =>
              refine Settles.pure ?_
              change final.left < last.left
              omega
        · exact Settles.pure (Nat.le_refl _)
      obtain ⟨hstarts, hless⟩ | ⟨-, hnone, -⟩ := hfirst
      · refine (settles_loopTokens hround).bind fun expression last hlast => ?_
        exact Settles.pure (Or.inl ⟨hstarts, Nat.lt_of_le_of_lt hlast hless⟩)
      · cases hnone

theorem reads_parseOr (hexpr : Below stall bound expr) :
    Level stall bound startsUnary (parseOr expr) := by
  have hfactor : Level stall bound startsUnary (parseFactor expr) :=
    reads_parseBinaryChain (reads_parseUnary hexpr) (by decide)
  have hterm : Level stall bound startsUnary (parseTerm expr) :=
    reads_parseBinaryChain hfactor (by decide)
  have hcomparison : Level stall bound startsUnary (parseComparison expr) :=
    reads_parseBinaryChain hterm (by decide)
  have hequality : Level stall bound startsUnary (parseEquality expr) :=
    reads_parseBinaryChain hcomparison (by decide)
  have hand : Level stall bound startsUnary (parseAnd expr) :=
    reads_parseBinaryChain hequality (by decide)
  exact reads_parseBinaryChain hand (by decide)

theorem reads_parseOkExpression (hexpr : Below stall bound expr) :
    Level stall bound startsExpression (parseOkExpression expr) := by
  intro state hbound
  apply settles_current_bind
  refine settles_accept_bind (by decide) (fun hkind after hless => ?_) (fun hkind => ?_)
  · refine (hexpr after (by omega)).bind fun value last hvalue => ?_
    have hstarts : startsExpression state.current.kind = true := by simp [startsExpression, hkind]
    exact Settles.pure (Or.inl ⟨hstarts, Nat.lt_of_le_of_lt hvalue.1 hless⟩)
  · have hsame : startsExpression state.current.kind = startsUnary state.current.kind := by
      simp [startsExpression, hkind]
    refine (reads_parseOr hexpr state hbound).weaken fun value after hreads => ?_
    unfold Reads at *
    rw [hsame]
    exact hreads

end Primary

theorem reads_parseExpressionWith {stall : Prop} (fuel : Nat) :
    ∀ state, state.left < fuel →
      Settles stall (parseExpressionWith fuel) state (Reads startsExpression state) := by
  induction fuel with
  | zero => exact fun _ hfuel => absurd hfuel (Nat.not_lt_zero _)
  | succ fuel ih =>
      intro state hfuel
      rw [parseExpressionWith]
      refine reads_parseOkExpression (fun after hafter => ?_) state (Nat.le_of_lt_succ hfuel)
      exact (ih after hafter).weaken fun _ _ hreads => hreads.takes

theorem reads_parseExpression {stall : Prop} (state : ParserState) :
    Settles stall parseExpression state (Reads startsExpression state) :=
  settles_withTokens parseExpressionWith
    (fun fuel state hfuel => reads_parseExpressionWith fuel state hfuel) state

theorem takes_parseExpression {stall : Prop} (state : ParserState) :
    Settles stall parseExpression state (Takes state) :=
  (reads_parseExpression state).weaken fun _ _ hreads => hreads.takes

theorem reads_parseTypeRef {stall : Prop} (state : ParserState) :
    Settles stall (parseType parseExpression) state (Reads startsType state) := by
  refine (settles_parseType (fun after _ => takes_parseExpression after)
    (Nat.le_refl state.left)).weaken fun type after hafter => ?_
  obtain ⟨-, hstart, hother⟩ := hafter
  cases hstarts : startsType state.current.kind with
  | true => exact Or.inl ⟨hstarts, hstart hstarts⟩
  | false => exact Or.inr ⟨hstarts, hother hstarts⟩

theorem takes_parseTypeRef {stall : Prop} (state : ParserState) :
    Settles stall (parseType parseExpression) state (Takes state) :=
  (reads_parseTypeRef state).weaken fun _ _ hreads => hreads.takes

end Parse

end Cnegative
