import Cnegative.Parse.Blocks

namespace Cnegative

namespace Parse

/-! The parser of the source has no watch: where the watched one stalls, it goes round the
same loop for ever.  `strict` runs with a watch, `plain` without; `adequate` says that the
plain run has at least as much fuel. -/

section Follows

variable {α β σ ρ : Type} {adequate : Prop}

def Related (adequate : Prop) : Outcome α → Outcome α → Prop
  | .done value after, plain => plain = .done value after ∨ (¬ adequate ∧ plain = .outOfFuel)
  | .stalled, plain => plain = .outOfFuel
  | .outOfFuel, _ => True

theorem related_outOfFuel (hshort : ¬ adequate) (strict : Outcome α) :
    Related adequate strict .outOfFuel := by
  cases strict with
  | done value after => exact Or.inr ⟨hshort, rfl⟩
  | outOfFuel => exact True.intro
  | stalled => exact rfl

def Follows (adequate : Prop) (strict plain : Parser α) : Prop :=
  ∀ state, Related adequate (strict state) (plain state)

theorem Follows.pure (value : α) :
    Follows adequate (Pure.pure value : Parser α) (Pure.pure value) :=
  fun _ => Or.inl rfl

theorem Follows.bind {strict plain : Parser α} {strictNext plainNext : α → Parser β}
    (hfirst : Follows adequate strict plain)
    (hnext : ∀ value, Follows adequate (strictNext value) (plainNext value)) :
    Follows adequate (strict >>= strictNext) (plain >>= plainNext) := by
  intro state
  change Related adequate (strict.bind strictNext state) (plain.bind plainNext state)
  have hstate := hfirst state
  unfold Parser.bind
  cases hrun : strict state with
  | done value after =>
      rw [hrun] at hstate
      obtain hsame | ⟨hshort, hout⟩ := hstate
      · rw [hsame]
        exact hnext value after
      · rw [hout]
        exact related_outOfFuel hshort _
  | outOfFuel => exact True.intro
  | stalled =>
      rw [hrun] at hstate
      have hout : plain state = .outOfFuel := hstate
      rw [hout]
      exact rfl

theorem Follows.same {run : Parser α} (hrun : ∀ bound, Down False bound run) :
    Follows adequate run run := by
  intro state
  have hdown := hrun state.left state (Nat.le_refl _)
  unfold Settles at hdown
  cases hresult : run state with
  | done value after => exact Or.inl rfl
  | outOfFuel => exact True.intro
  | stalled =>
      rw [hresult] at hdown
      exact hdown.elim

/-- Every round from this position goes on without a step. -/
def Stuck (round : σ → Parser (σ ⊕ ρ)) (state : ParserState) : Prop :=
  ∀ carried again, Stays state again →
    ∃ next after, round carried again = .done (.inl next) after ∧ Stays state after

theorem loop_of_stuck {round : σ → Parser (σ ⊕ ρ)} {state : ParserState}
    (hstuck : Stuck round state) (fuel : Nat) :
    ∀ carried again, Stays state again → loop round fuel carried again = .outOfFuel := by
  induction fuel with
  | zero => exact fun _ _ _ => rfl
  | succ fuel ih =>
      intro carried again hstays
      obtain ⟨next, after, hround, hafter⟩ := hstuck carried again hstays
      change Parser.bind (round carried) _ again = _
      simp only [Parser.bind, hround]
      exact ih next after hafter

theorem follows_loop {strict plain : σ → Parser (σ ⊕ ρ)} {stands : ParserState → Prop}
    (hstuck : ∀ state, stands state → Stuck plain state)
    (hround : ∀ carried state, Related adequate (strict carried state) (plain carried state) ∨
      (strict carried state = .stalled ∧ stands state)) (fuel : Nat) :
    ∀ enough, (adequate → fuel ≤ enough) → ∀ carried,
      Follows adequate (loop strict fuel carried) (loop plain enough carried) := by
  induction fuel with
  | zero => exact fun _ _ _ _ => True.intro
  | succ fuel ih =>
      intro enough hfuel carried state
      rcases hround carried state with hrelated | ⟨hstalled, hstands⟩
      · cases enough with
        | zero => exact related_outOfFuel (fun hadequate => by have := hfuel hadequate; omega) _
        | succ enough =>
            have hless : adequate → fuel ≤ enough := fun hadequate =>
              Nat.le_of_succ_le_succ (hfuel hadequate)
            change Related adequate (Parser.bind (strict carried) _ state)
              (Parser.bind (plain carried) _ state)
            unfold Parser.bind
            cases hrun : strict carried state with
            | done round after =>
                rw [hrun] at hrelated
                obtain hsame | ⟨hshort, hout⟩ := hrelated
                · rw [hsame]
                  cases round with
                  | inl next => exact ih enough hless next after
                  | inr result => exact Or.inl rfl
                · rw [hout]
                  exact related_outOfFuel hshort _
            | outOfFuel => exact True.intro
            | stalled =>
                rw [hrun] at hrelated
                have hout : plain carried state = .outOfFuel := hrelated
                rw [hout]
                exact rfl
      · have hstrict : loop strict (fuel + 1) carried state = .stalled := by
          change Parser.bind (strict carried) _ state = _
          simp only [Parser.bind, hstalled]
        rw [hstrict, loop_of_stuck (hstuck state hstands) enough carried state (Stays.refl state)]
        exact rfl

theorem stuck_of_settles {round : σ → Parser (σ ⊕ ρ)} {state : ParserState}
    (hround : ∀ carried again, Stays state again → Settles False (round carried) again
      fun result after => (∃ next, result = .inl next) ∧ Stays again after) :
    Stuck round state := by
  intro carried again hstays
  have hsettles := hround carried again hstays
  unfold Settles at hsettles
  cases hrun : round carried again with
  | done result after =>
      rw [hrun] at hsettles
      obtain ⟨⟨next, rfl⟩, hafter⟩ := hsettles
      exact ⟨next, after, rfl, hstays.trans hafter⟩
  | outOfFuel =>
      rw [hrun] at hsettles
      exact hsettles.elim
  | stalled =>
      rw [hrun] at hsettles
      exact hsettles.elim

end Follows

section Stuck

def BlockStands (state : ParserState) : Prop :=
  isTopLevelStart state.current.kind = true ∧ state.current.kind ≠ .eof

/-- A list of struct fields stands at a token that no part of a field takes. -/
def FieldStands (state : ParserState) : Prop :=
  startsField state.current.kind = false ∧ state.current.kind ≠ .rbrace ∧
    state.current.kind ≠ .eof

/-- Recovery stops at once where it may not skip the token. -/
theorem stays_sync {stall : Prop} {stops : TokenKind → Bool} {state : ParserState}
    (hsemicolon : state.current.kind ≠ .semicolon) (hstops : stops state.current.kind = true) :
    Settles stall (sync stops) state fun _ after => Stays state after := by
  refine ⟨?_, rfl⟩
  cases hrest : state.rest with
  | nil => rfl
  | cons token rest =>
      have hcurrent : state.current = token := by simp [ParserState.current, hrest]
      rw [hcurrent] at hsemicolon hstops
      simp [skipUntil, hsemicolon, hstops]

theorem topLevel_starts {kind : TokenKind} (htop : isTopLevelStart kind = true) :
    isStatementStart kind = false ∧ startsExpression kind = false ∧ kind ≠ .semicolon := by
  cases kind <;> first | (cases htop; done) | decide

/-- Nothing is read there, and the recovery stops there too. -/
theorem stuck_blockRound {block : Parser (Option BlockTree)} {state : ParserState}
    (hstands : BlockStands state) : Stuck (blockRound block false) state := by
  obtain ⟨htop, hopen⟩ := hstands
  apply stuck_of_settles
  intro statements again hstays
  rw [← hstays.current] at htop hopen
  obtain ⟨hstatement, hexpression, hsemicolon⟩ := topLevel_starts htop
  have hinside : ¬ (again.current.kind == .rbrace || again.current.kind == .eof) = true := by
    intro hend
    rcases Bool.or_eq_true_iff.mp hend with hrbrace | hlast
    · rw [beq_iff_eq.mp hrbrace] at htop
      cases htop
    · exact hopen (beq_iff_eq.mp hlast)
  apply settles_current_bind
  rw [if_neg hinside, Bool.false_and, if_neg (by decide)]
  have hread : Settles False (parseStatement block) again (Reads startsExpression again) := by
    unfold Settles
    rw [parseStatement_of_expression hstatement]
    exact reads_parseAssignmentOrExprStatement again
  refine hread.bind fun statement after hreads => ?_
  obtain ⟨hstarts, -⟩ | ⟨-, rfl, hafter⟩ := hreads
  · rw [hexpression] at hstarts
    cases hstarts
  · rw [← hafter.current] at htop hsemicolon
    have hstops : (after.current.kind == .rbrace || isStatementStart after.current.kind ||
        isTopLevelStart after.current.kind) = true := by
      rw [htop, Bool.or_true]
    refine (stays_sync hsemicolon hstops).bind fun _ last hlast => ?_
    exact Settles.pure ⟨⟨_, rfl⟩, hafter.trans hlast⟩

theorem stuck_fieldRound {state : ParserState} (hstands : FieldStands state) :
    Stuck (fieldRound false) state := by
  obtain ⟨hfield, hrbrace, hopen⟩ := hstands
  apply stuck_of_settles
  intro fields again hstays
  rw [← hstays.current] at hopen hrbrace hfield
  simp only [startsField, Bool.or_eq_false_iff] at hfield
  obtain ⟨⟨htype, hcolon⟩, hsemicolon⟩ := hfield
  have hname : again.current.kind ≠ .identifier := by
    intro hsame
    rw [hsame] at htype
    cases htype
  have hinside : ¬ (again.current.kind == .rbrace || again.current.kind == .eof) = true := by
    simp [hopen, hrbrace]
  apply settles_current_bind
  rw [if_neg hinside, Bool.false_and, if_neg (by decide)]
  refine settles_consume_bind (by decide) (fun hsame => absurd hsame hname) fun _ first hfirst => ?_
  refine settles_consume_bind (by decide) (fun hsame => ?_) fun _ second hsecond => ?_
  · rw [hfirst.current] at hsame
    rw [hsame] at hcolon
    cases hcolon
  · have hthere := hfirst.trans hsecond
    refine (reads_parseTypeRef second).bind fun type third hthird => ?_
    obtain ⟨hstarts, -⟩ | ⟨-, -, hafter⟩ := hthird
    · rw [hthere.current, htype] at hstarts
      cases hstarts
    · have hall := hthere.trans hafter
      refine (settles_requireSemicolon _).bind fun _ last hclose => ?_
      obtain ⟨hsame, -⟩ | ⟨-, hlast⟩ := hclose
      · rw [hall.current] at hsame
        rw [hsame] at hsemicolon
        cases hsemicolon
      · exact Settles.pure ⟨⟨_, rfl⟩, hall.trans hlast⟩

end Stuck

section Parsers

variable {adequate : Prop} {strict plain : Parser (Option BlockTree)}

theorem follows_parseExpression : Follows adequate parseExpression parseExpression :=
  .same fun _ => down_parseExpression

theorem follows_consume {kind : TokenKind} (hkind : kind ≠ .eof) (message : String) :
    Follows adequate (consume kind message) (consume kind message) :=
  .same fun _ => down_consume hkind message

theorem follows_parseIfStatement (hblock : Follows adequate strict plain) (fuel : Nat) :
    ∀ offset, Follows adequate (parseIfStatement strict fuel offset)
      (parseIfStatement plain fuel offset) := by
  induction fuel with
  | zero => exact fun _ _ => True.intro
  | succ fuel ih =>
      intro offset
      refine follows_parseExpression.bind fun condition => ?_
      refine hblock.bind fun thenBlock => ?_
      cases condition with
      | none => exact .pure _
      | some condition =>
          cases thenBlock with
          | none => exact .pure _
          | some thenBlock =>
              refine (Follows.same fun _ => down_accept (by decide)).bind fun hasElse => ?_
              cases hasElse with
              | false => exact .pure _
              | true =>
                  refine (Follows.same fun _ => down_check _).bind fun nests => ?_
                  cases nests with
                  | true =>
                      exact (Follows.same fun _ => down_advance).bind fun token =>
                        (ih token.offset).bind fun _ => .pure _
                  | false => exact hblock.bind fun _ => .pure _

theorem follows_parseWhileStatement (hblock : Follows adequate strict plain) (offset : Nat) :
    Follows adequate (parseWhileStatement strict offset) (parseWhileStatement plain offset) := by
  refine follows_parseExpression.bind fun condition => ?_
  refine hblock.bind fun body => ?_
  cases condition with
  | none => exact .pure _
  | some condition =>
      cases body with
      | none => exact .pure _
      | some body => exact .pure _

theorem follows_parseForStatement (hblock : Follows adequate strict plain) (offset : Nat) :
    Follows adequate (parseForStatement strict offset) (parseForStatement plain offset) := by
  refine (follows_consume (by decide) _).bind fun name => ?_
  refine (follows_consume (by decide) _).bind fun _ => ?_
  refine (Follows.same fun _ => down_parseTypeRef).bind fun type => ?_
  refine (follows_consume (by decide) _).bind fun _ => ?_
  refine follows_parseExpression.bind fun start => ?_
  refine (follows_consume (by decide) _).bind fun _ => ?_
  refine follows_parseExpression.bind fun stop => ?_
  refine hblock.bind fun body => ?_
  cases name <;> cases type <;> cases start <;> cases stop <;> cases body <;> exact .pure _

theorem follows_keyword {α : Type} {strictRest plainRest : Token → Parser α}
    (hrest : ∀ token, Follows adequate (strictRest token) (plainRest token)) :
    Follows adequate (advance >>= strictRest) (advance >>= plainRest) :=
  (Follows.same fun _ => down_advance).bind hrest

theorem follows_parseStatement (hblock : Follows adequate strict plain) :
    Follows adequate (parseStatement strict) (parseStatement plain) := by
  refine (Follows.same fun _ _ _ => Nat.le_refl _).bind fun token => ?_
  cases hkind : token.kind
  case «let» => exact follows_keyword fun _ => .same fun _ => down_parseLetStatement _
  case «return» => exact follows_keyword fun _ => .same fun _ => down_parseReturnStatement _
  case zone => exact follows_keyword fun _ => hblock.bind fun _ => .pure _
  case «try» => exact follows_keyword fun _ => .same fun _ => down_parseTryStatement _
  case free => exact follows_keyword fun _ => .same fun _ => down_parseFreeStatement _
  case defer => exact follows_keyword fun _ => .same fun _ => down_parseDeferStatement _
  case «if» =>
    exact follows_keyword fun _ state => follows_parseIfStatement hblock _ _ state
  case «while» => exact follows_keyword fun _ => follows_parseWhileStatement hblock _
  case loop => exact follows_keyword fun _ => hblock.bind fun _ => .pure _
  case «for» => exact follows_keyword fun _ => follows_parseForStatement hblock _
  all_goals exact .same fun bound state _ =>
    (reads_parseAssignmentOrExprStatement state).weaken fun _ _ hreads => hreads.takes.1

theorem follows_blockRound (hblock : Follows adequate strict plain)
    (statements : List StmtTree) (state : ParserState) :
    Related adequate (blockRound strict true statements state)
        (blockRound plain false statements state) ∨
      (blockRound strict true statements state = .stalled ∧ BlockStands state) := by
  -- `next` is what the round does behind the statement.
  obtain ⟨next, hround, hnone, hsome⟩ :
      ∃ next : Option StmtTree → Parser (List StmtTree ⊕ List StmtTree),
        (∀ block watch, blockRound block watch statements state =
          (if state.current.kind == .rbrace || state.current.kind == .eof then
            pure (.inr statements)
          else if watch && isTopLevelStart state.current.kind then standsStill
          else parseStatement block >>= next) state) ∧
        next none = (do syncStatement; return .inl statements) ∧
        ∀ statement, next (some statement) = return .inl (statements ++ [statement]) :=
    ⟨_, fun _ _ => rfl, rfl, fun _ => rfl⟩
  by_cases hend : (state.current.kind == .rbrace || state.current.kind == .eof) = true
  · rw [hround strict, hround plain, if_pos hend, if_pos hend]
    exact Or.inl (Or.inl rfl)
  · rw [hround strict, hround plain, if_neg hend, if_neg hend, Bool.true_and, Bool.false_and,
      if_neg Bool.false_ne_true]
    by_cases htop : isTopLevelStart state.current.kind = true
    · rw [if_pos htop]
      refine Or.inr ⟨rfl, htop, fun hlast => hend ?_⟩
      rw [hlast]
      decide
    · rw [if_neg htop]
      refine Or.inl ((follows_parseStatement hblock).bind (fun statement => ?_) state)
      cases statement with
      | none =>
          rw [hnone]
          exact (Follows.same fun _ => down_sync _).bind fun _ => .pure _
      | some statement =>
          rw [hsome]
          exact .pure _

theorem follows_parseBlock (fuel : Nat) :
    ∀ enough, (adequate → fuel ≤ enough) →
      Follows adequate (parseBlock true fuel) (parseBlock false enough) := by
  induction fuel with
  | zero => exact fun _ _ _ => True.intro
  | succ fuel ih =>
      intro enough hfuel
      cases enough with
      | zero =>
          exact fun state =>
            related_outOfFuel (fun hadequate => by have := hfuel hadequate; omega) _
      | succ enough =>
          have hless : adequate → fuel ≤ enough := fun hadequate =>
            Nat.le_of_succ_le_succ (hfuel hadequate)
          refine (follows_consume (by decide) _).bind fun leftBrace => ?_
          cases leftBrace with
          | none => exact .pure _
          | some leftBrace =>
              refine (follows_loop (fun _ hstands => stuck_blockRound hstands)
                (follows_blockRound (ih enough hless)) (fuel + 1) (enough + 1) hfuel []).bind
                fun statements => ?_
              exact (follows_consume (by decide) _).bind fun _ => .pure _

theorem follows_fieldRound (fields : List FieldTree) (state : ParserState) :
    Related adequate (fieldRound true fields state) (fieldRound false fields state) ∨
      (fieldRound true fields state = .stalled ∧ FieldStands state) := by
  have hround : ∀ watch, fieldRound watch fields state =
      (if state.current.kind == .rbrace || state.current.kind == .eof then
        pure (.inr fields)
      else if watch && !startsField state.current.kind then standsStill
      else do
        let fieldName ← consume .identifier "expected struct field name"
        let _ ← consume .colon "expected ':' after struct field name"
        let fieldType ← parseType parseExpression
        requireSemicolon "expected ';' after struct field"
        return .inl (pushField fields fieldName fieldType)) state := fun _ => rfl
  rw [hround, hround]
  by_cases hend : (state.current.kind == .rbrace || state.current.kind == .eof) = true
  · rw [if_pos hend, if_pos hend]
    exact Or.inl (Or.inl rfl)
  · rw [if_neg hend, if_neg hend, Bool.true_and, Bool.false_and, if_neg Bool.false_ne_true]
    simp only [Bool.or_eq_true, beq_iff_eq, not_or] at hend
    cases hfield : startsField state.current.kind with
    | true =>
        refine Or.inl (Follows.same (fun _ => ?_) state)
        refine (down_consume (by decide) _).bind fun fieldName => ?_
        refine (down_consume (by decide) _).bind fun _ => ?_
        refine down_parseTypeRef.bind fun fieldType => ?_
        exact (down_requireSemicolon _).bind fun _ => .pure _
    | false => exact Or.inr ⟨rfl, hfield, hend⟩

theorem follows_parseStructDecl {fuel enough : Nat} (hfuel : adequate → fuel ≤ enough)
    (isPublic : Bool) (offset : Nat) : Follows adequate
      (parseStructDecl true fuel isPublic offset) (parseStructDecl false enough isPublic offset) := by
  refine (follows_consume (by decide) _).bind fun name => ?_
  cases name with
  | none => exact .pure _
  | some name =>
      refine (follows_consume (by decide) _).bind fun leftBrace => ?_
      cases leftBrace with
      | none => exact .pure _
      | some leftBrace =>
          refine (follows_loop (fun _ hstands => stuck_fieldRound hstands) follows_fieldRound fuel
            enough hfuel []).bind fun fields => ?_
          exact (follows_consume (by decide) _).bind fun _ => .pure _

theorem follows_parseFunction {fuel enough : Nat} (hfuel : adequate → fuel ≤ enough)
    (isPublic : Bool) (offset : Nat) : Follows adequate
      (parseFunction true fuel isPublic offset) (parseFunction false enough isPublic offset) := by
  refine (follows_consume (by decide) _).bind fun colon => ?_
  cases colon with
  | none => exact .pure _
  | some colon =>
      refine (Follows.same fun _ => down_parseTypeRef).bind fun returnType => ?_
      cases returnType with
      | none => exact .pure _
      | some returnType =>
          refine (follows_consume (by decide) _).bind fun name => ?_
          cases name with
          | none => exact .pure _
          | some name =>
              refine (follows_consume (by decide) _).bind fun lparen => ?_
              cases lparen with
              | none => exact .pure _
              | some lparen =>
                  refine (Follows.same fun _ => down_parseParameters).bind fun parameters => ?_
                  refine (follows_consume (by decide) _).bind fun rparen => ?_
                  cases rparen with
                  | none => exact .pure _
                  | some rparen =>
                      exact (follows_parseBlock fuel enough hfuel).bind fun _ => .pure _

theorem follows_decl {α : Type} {strictDecl plainDecl : Token → Parser (Option α)}
    (program : ProgramTree) (push : ProgramTree → α → ProgramTree)
    (hdecl : ∀ token, Follows adequate (strictDecl token) (plainDecl token)) :
    Follows adequate
      (advance >>= fun token => strictDecl token >>= fun found => pushOrSync program push found)
      (advance >>= fun token => plainDecl token >>= fun found => pushOrSync program push found) := by
  refine follows_keyword fun token => (hdecl token).bind fun found => ?_
  cases found with
  | none => exact (Follows.same fun _ => down_sync _).bind fun _ => .pure _
  | some found => exact .pure _

theorem follows_programRound {fuel enough : Nat} (hfuel : adequate → fuel ≤ enough)
    (program : ProgramTree) :
    Follows adequate (programRound true fuel program) (programRound false enough program) := by
  refine (Follows.same fun _ _ _ => Nat.le_refl _).bind fun token => ?_
  cases hkind : token.kind
  case eof => exact .pure _
  case «import» =>
    exact follows_decl program _ fun _ => .same fun _ => down_parseImportDecl _
  case const => exact follows_decl program _ fun _ => .same fun _ => down_parseConstDecl _ _
  case pconst => exact follows_decl program _ fun _ => .same fun _ => down_parseConstDecl _ _
  case struct => exact follows_decl program _ fun _ => follows_parseStructDecl hfuel _ _
  case pstruct => exact follows_decl program _ fun _ => follows_parseStructDecl hfuel _ _
  case fn => exact follows_decl program _ fun _ => follows_parseFunction hfuel _ _
  case pfn => exact follows_decl program _ fun _ => follows_parseFunction hfuel _ _
  all_goals exact (Follows.same fun _ => down_emit _ _ _).bind fun _ =>
    (Follows.same fun _ => down_sync _).bind fun _ => .pure _

theorem follows_parseProgram {fuel enough : Nat} (hfuel : adequate → fuel ≤ enough) :
    Follows adequate (parseProgram true fuel) (parseProgram false enough) :=
  follows_loop (fun _ (hfalse : False) => hfalse.elim)
    (fun program state => Or.inl (follows_programRound hfuel program state)) fuel enough hfuel _

end Parsers

/-- `cn_parser_init` over the tokens in front of the final one. -/
def ParserState.start (tokens : List Token) (last : { token : Token // token.kind = .eof }) :
    ParserState :=
  ⟨tokens, last, []⟩

def Returns (tokens : List Token) (last : { token : Token // token.kind = .eof }) : Prop :=
  ∃ fuel program after, parseProgram false fuel (.start tokens last) = .done program after

/-- No block of the run stands at the start of a top-level item, and no list of struct fields
at a token that no part of a field takes. -/
def NeverStands (tokens : List Token) (last : { token : Token // token.kind = .eof }) : Prop :=
  (parseProgram true (tokens.length + 1) (.start tokens last)).isStalled = false

theorem not_returns_of_stalled {tokens : List Token}
    {last : { token : Token // token.kind = .eof }} {fuel : Nat}
    (hstalled : parseProgram true fuel (.start tokens last) = .stalled) :
    ¬ Returns tokens last := by
  rintro ⟨enough, program, after, hdone⟩
  have hrelated : Related False (parseProgram true fuel (.start tokens last))
      (parseProgram false enough (.start tokens last)) :=
    follows_parseProgram (fun hfalse => hfalse.elim) _
  rw [hstalled, hdone] at hrelated
  cases hrelated

/-- The parser returns just where neither loop is left standing. -/
theorem returns_iff (tokens : List Token) (last : { token : Token // token.kind = .eof }) :
    Returns tokens last ↔ NeverStands tokens last := by
  have hsettles := settles_parseProgram (.start tokens last) (Nat.lt_succ_self tokens.length)
  unfold Settles at hsettles
  unfold NeverStands
  cases hrun : parseProgram true (tokens.length + 1) (.start tokens last) with
  | done program after =>
      refine ⟨fun _ => rfl, fun _ => ?_⟩
      have hrelated : Related True (parseProgram true (tokens.length + 1) (.start tokens last))
          (parseProgram false (tokens.length + 1) (.start tokens last)) :=
        follows_parseProgram (fun _ => Nat.le_refl _) _
      rw [hrun] at hrelated
      obtain hsame | ⟨hshort, -⟩ := hrelated
      · exact ⟨_, program, after, hsame⟩
      · exact absurd True.intro hshort
  | outOfFuel =>
      rw [hrun] at hsettles
      exact hsettles.elim
  | stalled =>
      refine ⟨fun hreturns => absurd hreturns (not_returns_of_stalled hrun), fun hfalse => ?_⟩
      cases hfalse

/-! What one round of each loop does. -/

section Rounds

variable {σ ρ : Type}

/-- A round that ends takes a token or leaves the loop, but where the loop stands. -/
def Advances (round : σ → Parser (σ ⊕ ρ)) (stands : ParserState → Prop) : Prop :=
  ∀ carried state result after, round carried state = .done result after →
    (Rounds state result after ↔ ¬ stands state)

theorem advances_of_rounds {round : σ → Parser (σ ⊕ ρ)}
    (hround : ∀ carried state, Settles True (round carried) state (Rounds state)) :
    Advances round fun _ => False := by
  intro carried state result after hrun
  have hsettles := hround carried state
  unfold Settles at hsettles
  rw [hrun] at hsettles
  exact ⟨fun _ hfalse => hfalse, fun _ => hsettles⟩

theorem not_rounds_of_stuck {round : σ → Parser (σ ⊕ ρ)} {carried : σ} {state : ParserState}
    {result : σ ⊕ ρ} {after : ParserState} (hrun : round carried state = .done result after)
    (hstuck : Stuck round state) : ¬ Rounds state result after := by
  obtain ⟨next, again, hround, hstays⟩ := hstuck carried state (Stays.refl state)
  rw [hrun] at hround
  cases hround
  intro hless
  have hsame := hstays.left
  have hfewer : after.left < state.left := hless
  omega

/-- What the watched round takes, the one without a watch takes too. -/
theorem rounds_of_related {strict plain : Parser (σ ⊕ ρ)} {state : ParserState}
    {result : σ ⊕ ρ} {after : ParserState} (hrun : plain state = .done result after)
    (hstrict : Settles True strict state (Rounds state))
    (hrelated : Related False (strict state) (plain state)) : Rounds state result after := by
  rw [hrun] at hrelated
  unfold Settles at hstrict
  cases hwatched : strict state with
  | done value again =>
      rw [hwatched] at hrelated hstrict
      obtain hsame | ⟨-, hout⟩ := hrelated
      · cases hsame
        exact hstrict
      · cases hout
  | outOfFuel =>
      rw [hwatched] at hstrict
      exact hstrict.elim
  | stalled =>
      rw [hwatched] at hrelated
      cases hrelated

theorem advances_fieldRound : Advances (fieldRound false) FieldStands := by
  intro fields state result after hrun
  constructor
  · exact fun hrounds hstands => not_rounds_of_stuck hrun (stuck_fieldRound hstands) hrounds
  · intro hgoes
    rcases follows_fieldRound fields state with hrelated | ⟨-, hstands⟩
    · exact rounds_of_related hrun (rounds_fieldRound fields state) hrelated
    · exact absurd hstands hgoes

theorem advances_blockRound (fuel : Nat) :
    Advances (blockRound (parseBlock false fuel) false) BlockStands := by
  intro statements state result after hrun
  constructor
  · exact fun hrounds hstands => not_rounds_of_stuck hrun (stuck_blockRound hstands) hrounds
  · intro hgoes
    have hblock : Down True state.left (parseBlock true (state.left + 1)) := fun again hagain =>
      (takes_parseBlock (state.left + 1) again (Nat.lt_succ_of_le hagain)).weaken
        fun _ _ htakes => htakes.1
    have hfollows : Follows False (parseBlock true (state.left + 1)) (parseBlock false fuel) :=
      follows_parseBlock _ _ fun hfalse => hfalse.elim
    rcases follows_blockRound hfollows statements state with hrelated | ⟨-, hstands⟩
    · exact rounds_of_related hrun
        (rounds_blockRound hblock statements state (Nat.le_refl _)) hrelated
    · exact absurd hstands hgoes

theorem advances_programRound (fuel : Nat) :
    Advances (programRound false fuel) fun _ => False := by
  intro program state result after hrun
  refine ⟨fun _ hfalse => hfalse, fun _ => ?_⟩
  exact rounds_of_related hrun (rounds_programRound program state (Nat.lt_succ_self state.left))
    (follows_programRound (fun hfalse => hfalse.elim) program state)

theorem advances_itemRound : Advances (itemRound parseExpression) fun _ => False :=
  advances_of_rounds fun items state =>
    rounds_itemRound (fun after _ => takes_parseExpression after) items state (Nat.le_refl _)

end Rounds

/-- The parser returns just where neither loop is left standing, and only there a round of one
of its loops takes nothing and goes on. -/
theorem parser_advances_iff (tokens : List Token)
    (last : { token : Token // token.kind = .eof }) (fuel : Nat) :
    (Returns tokens last ↔ NeverStands tokens last) ∧
      Advances (fieldRound false) FieldStands ∧
      Advances (blockRound (parseBlock false fuel) false) BlockStands ∧
      Advances (programRound false fuel) (fun _ => False) ∧
      Advances parameterRound (fun _ => False) ∧
      Advances (itemRound parseExpression) fun _ => False :=
  ⟨returns_iff tokens last, advances_fieldRound, advances_blockRound fuel,
    advances_programRound fuel, advances_of_rounds rounds_parameterRound, advances_itemRound⟩

/-- `struct S { + }`: the round over the fields reports three errors at `+` and stays. -/
def structWithPlus : List Token :=
  [⟨.struct, 0, 1, 1, Name.text "struct"⟩, ⟨.identifier, 7, 1, 8, Name.text "S"⟩,
    ⟨.lbrace, 9, 1, 10, Name.text "\x7b"⟩, ⟨.plus, 11, 1, 12, Name.text "+"⟩,
    ⟨.rbrace, 13, 1, 14, Name.text "\x7d"⟩]

def endOfFile (offset : Nat) : { token : Token // token.kind = .eof } :=
  ⟨⟨.eof, offset, 1, offset + 1, []⟩, rfl⟩

theorem structWithPlus_runs_on : ¬ Returns structWithPlus (endOfFile 14) :=
  not_returns_of_stalled (show parseProgram true 6 _ = .stalled from rfl)

/-- `pfn pfn :`, an error at each of the two keywords and then at the end. -/
example : NeverStands [⟨.pfn, 0, 1, 1, []⟩, ⟨.pfn, 4, 1, 5, []⟩, ⟨.colon, 8, 1, 9, []⟩]
    (endOfFile 9) := rfl

end Parse

end Cnegative
