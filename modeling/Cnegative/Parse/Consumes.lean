import Cnegative.Parse.Print

namespace Cnegative

namespace Parse

/-! Runs that read exactly the tokens in front of a rest, and report nothing. -/

variable {α β σ ρ : Type}

/-- The kind of the token at a distance, which is EOF behind the last one. -/
def kindAt (tokens : List Token) (distance : Nat) : TokenKind :=
  ((tokens[distance]?).map Token.kind).getD .eof

@[simp] theorem kindAt_nil (distance : Nat) : kindAt [] distance = .eof := rfl

@[simp] theorem kindAt_zero (token : Token) (tokens : List Token) :
    kindAt (token :: tokens) 0 = token.kind := rfl

@[simp] theorem kindAt_succ (token : Token) (tokens : List Token) (distance : Nat) :
    kindAt (token :: tokens) (distance + 1) = kindAt tokens distance := rfl

/-- The run reads `tokens` in front of `rest` and returns `value`. -/
def Consumes (run : Parser α) (tokens rest : List Token) (value : α) : Prop :=
  ∀ last diagnostics,
    run ⟨tokens ++ rest, last, diagnostics⟩ = .done value ⟨rest, last, diagnostics⟩

section States

variable (tokens : List Token) (last : { token : Token // token.kind = .eof })
  (diagnostics : List Diagnostic)

theorem peek_kind (distance : Nat) :
    (ParserState.peek ⟨tokens, last, diagnostics⟩ distance).kind = kindAt tokens distance := by
  unfold ParserState.peek kindAt
  cases tokens[distance]? with
  | none => exact last.2
  | some token => rfl

theorem current_kind :
    (ParserState.current ⟨tokens, last, diagnostics⟩).kind = kindAt tokens 0 := by
  cases tokens with
  | nil => exact last.2
  | cons token rest => rfl

end States

theorem bind_done {first : Parser α} {next : α → Parser β} {state after : ParserState} {a : α}
    (hfirst : first state = .done a after) : (first >>= next) state = next a after := by
  change Parser.bind first next state = _
  unfold Parser.bind
  rw [hfirst]

namespace Consumes

theorem pure (value : α) (rest : List Token) : Consumes (pure value : Parser α) [] rest value :=
  fun _ _ => rfl

theorem bind {first : Parser α} {next : α → Parser β} {tokens more rest : List Token} {a : α}
    {b : β} (hfirst : Consumes first tokens (more ++ rest) a)
    (hnext : Consumes (next a) more rest b) :
    Consumes (first >>= next) (tokens ++ more) rest b := by
  intro last diagnostics
  rw [List.append_assoc, bind_done (hfirst last diagnostics)]
  exact hnext last diagnostics

/-- A run whose last tokens its first step reads. -/
theorem bind_last {first : Parser α} {next : α → Parser β} {tokens rest : List Token} {a : α}
    {b : β} (hfirst : Consumes first tokens rest a) (hnext : Consumes (next a) [] rest b) :
    Consumes (first >>= next) tokens rest b := by
  rw [← List.append_nil tokens]
  exact bind hfirst hnext

/-- The last step of a run. -/
theorem map {run : Parser α} {build : α → β} {tokens rest : List Token} {a : α}
    (hrun : Consumes run tokens rest a) :
    Consumes (do return build (← run)) tokens rest (build a) := by
  intro last diagnostics
  rw [bind_done (hrun last diagnostics)]
  rfl

/-- A look at the token in front. -/
theorem current {next : Token → Parser β} {tokens rest : List Token} {b : β}
    (hnext : ∀ token : Token, token.kind = kindAt (tokens ++ rest) 0 →
      Consumes (next token) tokens rest b) :
    Consumes (Parse.current >>= next) tokens rest b := by
  intro last diagnostics
  exact hnext _ (current_kind _ last diagnostics) last diagnostics

theorem current_cons {next : Token → Parser β} {token : Token} {tokens rest : List Token} {b : β}
    (hnext : Consumes (next token) (token :: tokens) rest b) :
    Consumes (Parse.current >>= next) (token :: tokens) rest b :=
  fun last diagnostics => hnext last diagnostics

/-- A run that goes on behind its first token. -/
theorem bind_cons {first : Parser α} {next : α → Parser β} {token : Token}
    {more rest : List Token} {a : α} {b : β} (hfirst : Consumes first [token] (more ++ rest) a)
    (hnext : Consumes (next a) more rest b) : Consumes (first >>= next) (token :: more) rest b :=
  bind hfirst hnext

/-- A run that goes on where it stands. -/
theorem bind_nil {first : Parser α} {next : α → Parser β} {tokens rest : List Token} {a : α}
    {b : β} (hfirst : Consumes first [] (tokens ++ rest) a)
    (hnext : Consumes (next a) tokens rest b) : Consumes (first >>= next) tokens rest b :=
  bind hfirst hnext

theorem check {kind : TokenKind} {next : Bool → Parser β} {tokens rest : List Token} {b : β}
    (answer : Bool) (hanswer : (kindAt (tokens ++ rest) 0 == kind) = answer)
    (hnext : Consumes (next answer) tokens rest b) :
    Consumes (Parse.check kind >>= next) tokens rest b := by
  intro last diagnostics
  have hcheck : Parse.check kind ⟨tokens ++ rest, last, diagnostics⟩ =
      .done answer ⟨tokens ++ rest, last, diagnostics⟩ := by
    unfold Parse.check
    rw [current_kind, hanswer]
  rw [bind_done hcheck]
  exact hnext last diagnostics

theorem advance {token : Token} {rest : List Token} (hkind : token.kind ≠ .eof) :
    Consumes Parse.advance [token] rest token := by
  intro last diagnostics
  unfold Parse.advance
  rw [if_neg (by exact hkind)]
  rfl

theorem accept {token : Token} {kind : TokenKind} {rest : List Token} (hkind : token.kind = kind)
    (heof : kind ≠ .eof) : Consumes (Parse.accept kind) [token] rest true := by
  subst hkind
  refine check true (by simp) ?_
  exact (advance heof).bind (pure true rest)

theorem accept_other {kind : TokenKind} {rest : List Token} (hkind : kindAt rest 0 ≠ kind) :
    Consumes (Parse.accept kind) [] rest false :=
  check false (by simpa using hkind) (pure false rest)

theorem consume {token : Token} {kind : TokenKind} {rest : List Token} (hkind : token.kind = kind)
    (heof : kind ≠ .eof) (message : String) :
    Consumes (Parse.consume kind message) [token] rest (some token) := by
  subst hkind
  refine check true (by simp) ?_
  exact (advance heof).bind (pure (some token) rest)

end Consumes

/-! Loops. -/

/-- The rounds of a loop that read `tokens`, however much fuel there is. -/
def LoopReads (body : σ → Parser (σ ⊕ ρ)) (carried : σ) (tokens rest : List Token) (next : σ) :
    Prop :=
  ∀ last diagnostics fuel, (tokens ++ rest).length < fuel → ∃ fuel', rest.length < fuel' ∧
    loop body fuel carried ⟨tokens ++ rest, last, diagnostics⟩ =
      loop body fuel' next ⟨rest, last, diagnostics⟩

namespace LoopReads

variable {body : σ → Parser (σ ⊕ ρ)} {carried middle next : σ} {tokens more rest : List Token}

theorem refl (body : σ → Parser (σ ⊕ ρ)) (carried : σ) (rest : List Token) :
    LoopReads body carried [] rest carried :=
  fun _ _ fuel hfuel => ⟨fuel, hfuel, rfl⟩

theorem trans (hfirst : LoopReads body carried tokens (more ++ rest) middle)
    (hsecond : LoopReads body middle more rest next) :
    LoopReads body carried (tokens ++ more) rest next := by
  intro last diagnostics fuel hfuel
  rw [List.append_assoc] at hfuel ⊢
  obtain ⟨fuel', hfuel', hloop⟩ := hfirst last diagnostics fuel hfuel
  rw [hloop]
  exact hsecond last diagnostics fuel' hfuel'

theorem round (htokens : tokens ≠ [])
    (hround : Consumes (body carried) tokens rest (.inl next)) :
    LoopReads body carried tokens rest next := by
  intro last diagnostics fuel hfuel
  cases fuel with
  | zero => exact absurd hfuel (Nat.not_lt_zero _)
  | succ fuel =>
      have hlength := List.length_pos_iff.mpr htokens
      rw [List.length_append] at hfuel
      refine ⟨fuel, by omega, ?_⟩
      rw [loop, bind_done (hround last diagnostics)]

theorem finish {result : ρ} (hrounds : LoopReads body carried tokens rest next)
    (hend : Consumes (body next) [] rest (.inr result)) :
    Consumes (loopTokens body carried) tokens rest result := by
  intro last diagnostics
  unfold loopTokens
  obtain ⟨fuel, hfuel, hloop⟩ := hrounds last diagnostics _ (Nat.lt_succ_self _)
  cases fuel with
  | zero => exact absurd hfuel (Nat.not_lt_zero _)
  | succ fuel =>
      have hlast := hend last diagnostics
      rw [List.nil_append] at hlast
      change loop body ((tokens ++ rest).length + 1) carried _ = _
      rw [hloop, loop, bind_done hlast]
      rfl

end LoopReads

end Parse

end Cnegative
