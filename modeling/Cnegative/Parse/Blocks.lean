import Cnegative.Parse.Stmt

namespace Cnegative

namespace Parse

/-! Statements and declarations are read to an end, where a block is.  `Down` is what the
parts of a construct have in common: with at most `bound` tokens left they end and put
nothing back. -/

section Down

variable {α β : Type} {stall : Prop} {bound : Nat}

def Down (stall : Prop) (bound : Nat) (run : Parser α) : Prop :=
  ∀ state, state.left ≤ bound → Settles stall run state (Shrinks state)

theorem Down.pure (value : α) : Down stall bound (Pure.pure value : Parser α) :=
  fun _ _ => Settles.pure (Nat.le_refl _)

theorem Down.bind {first : Parser α} {next : α → Parser β} (hfirst : Down stall bound first)
    (hnext : ∀ value, Down stall bound (next value)) : Down stall bound (first >>= next) := by
  intro state hbound
  refine (hfirst state hbound).bind fun value after hafter => ?_
  have hless : after.left ≤ state.left := hafter
  exact (hnext value after (Nat.le_trans hless hbound)).weaken fun _ _ hlast =>
    Nat.le_trans hlast hless

theorem Down.of_takes {run : Parser (Option α)}
    (hrun : ∀ state, Settles stall run state (Takes state)) : Down stall bound run :=
  fun state _ => (hrun state).weaken fun _ _ hafter => hafter.1

theorem down_check (kind : TokenKind) : Down stall bound (check kind) :=
  fun _ _ => Nat.le_refl _

theorem down_emit (code : String) (offset : Nat) (message : String) :
    Down stall bound (emit code offset message) :=
  fun _ _ => Nat.le_refl _

theorem down_advance : Down stall bound advance :=
  fun _ _ => settles_advance.weaken fun _ _ hafter => hafter.1

theorem down_accept {kind : TokenKind} (hkind : kind ≠ .eof) :
    Down stall bound (accept kind) := by
  intro state _
  refine (settles_accept hkind).weaken fun answer after hafter => ?_
  cases answer with
  | true => exact Nat.le_of_lt (hafter.1 rfl).1
  | false =>
      rw [(hafter.2 rfl).1]
      exact Nat.le_refl _

theorem down_consume {kind : TokenKind} (hkind : kind ≠ .eof) (message : String) :
    Down stall bound (consume kind message) :=
  .of_takes fun _ => takes_consume hkind message

theorem down_requireSemicolon (message : String) :
    Down stall bound (requireSemicolon message) :=
  fun _ _ => shrinks_requireSemicolon message

theorem down_sync (stops : TokenKind → Bool) : Down stall bound (sync stops) :=
  fun _ _ => (settles_sync stops).weaken fun _ _ hafter => hafter.1

theorem down_parseExpression : Down stall bound parseExpression :=
  .of_takes takes_parseExpression

theorem down_parseTypeRef : Down stall bound (parseType parseExpression) :=
  .of_takes takes_parseTypeRef

end Down

section Statements

variable {stall : Prop} {bound : Nat} {block : Parser (Option BlockTree)}

theorem down_parseLetStatement (offset : Nat) :
    Down stall bound (parseLetStatement offset) := by
  unfold parseLetStatement
  refine (down_accept (by decide)).bind fun isMutable => ?_
  refine (down_consume (by decide) _).bind fun name => ?_
  refine (down_consume (by decide) _).bind fun _ => ?_
  refine down_parseTypeRef.bind fun type => ?_
  refine (down_consume (by decide) _).bind fun _ => ?_
  refine down_parseExpression.bind fun initializer => ?_
  refine (down_requireSemicolon _).bind fun _ => ?_
  split
  · exact .pure _
  · exact .pure _

theorem down_parseReturnStatement (offset : Nat) :
    Down stall bound (parseReturnStatement offset) := by
  unfold parseReturnStatement
  refine (down_check _).bind fun ends => ?_
  split
  · exact (down_requireSemicolon _).bind fun _ => .pure _
  · exact down_parseExpression.bind fun value => (down_requireSemicolon _).bind fun _ => .pure _

theorem down_parseTryStatement (offset : Nat) :
    Down stall bound (parseTryStatement offset) := by
  unfold parseTryStatement
  refine (down_consume (by decide) _).bind fun name => ?_
  refine (down_consume (by decide) _).bind fun _ => ?_
  refine down_parseExpression.bind fun initializer => ?_
  refine (down_requireSemicolon _).bind fun _ => ?_
  split
  · exact .pure _
  · exact .pure _

theorem down_parseFreeStatement (offset : Nat) :
    Down stall bound (parseFreeStatement offset) :=
  down_parseExpression.bind fun _ => (down_requireSemicolon _).bind fun _ => .pure _

theorem down_parseDeferStatement (offset : Nat) :
    Down stall bound (parseDeferStatement offset) := by
  unfold parseDeferStatement
  refine (down_check _).bind fun frees => ?_
  split
  · exact down_advance.bind fun token =>
      (down_parseFreeStatement token.offset).bind fun _ => .pure _
  · exact down_parseExpression.bind fun value => (down_requireSemicolon _).bind fun _ => .pure _

/-- What follows an expression that was read. -/
theorem down_assignmentRest (left : ExprTree) :
    Down stall bound (do
      if ← accept .equal then
        let value ← parseExpression
        requireSemicolon "expected ';' after assignment"
        match value with
        | none => return none
        | some value =>
            if left.isAssignable then return some (StmtTree.assign left.offset left value)
            else
              emit "E1006" left.offset "invalid assignment target"
              return some (.assign left.offset left value)
      else
        requireSemicolon "expected ';' after expression statement"
        return some (.expr left.offset left)) := by
  refine (down_accept (by decide)).bind fun assigns => ?_
  split
  · refine down_parseExpression.bind fun value => ?_
    refine (down_requireSemicolon _).bind fun _ => ?_
    cases value with
    | none => exact .pure _
    | some value =>
        dsimp only
        split
        · exact .pure _
        · exact (down_emit _ _ _).bind fun _ => .pure _
  · exact (down_requireSemicolon _).bind fun _ => .pure _

theorem reads_parseAssignmentOrExprStatement (state : ParserState) :
    Settles stall parseAssignmentOrExprStatement state (Reads startsExpression state) := by
  refine (reads_parseExpression state).bind fun left after hleft => ?_
  cases left with
  | none =>
      obtain ⟨hstarts, hless⟩ | ⟨hstarts, -, hstays⟩ := hleft
      · exact Settles.pure (Or.inl ⟨hstarts, hless⟩)
      · exact Settles.pure (Or.inr ⟨hstarts, rfl, hstays⟩)
  | some left =>
      obtain ⟨hstarts, hless⟩ | ⟨-, hnone, -⟩ := hleft
      · refine (down_assignmentRest left after (Nat.le_refl _)).weaken fun _ last hlast => ?_
        exact Or.inl ⟨hstarts, Nat.lt_of_le_of_lt hlast hless⟩
      · cases hnone

theorem down_parseZoneStatement (hblock : Down stall bound block) (offset : Nat) :
    Down stall bound (parseZoneStatement block offset) :=
  hblock.bind fun _ => .pure _

theorem down_parseLoopStatement (hblock : Down stall bound block) (offset : Nat) :
    Down stall bound (parseLoopStatement block offset) :=
  hblock.bind fun _ => .pure _

theorem down_parseWhileStatement (hblock : Down stall bound block) (offset : Nat) :
    Down stall bound (parseWhileStatement block offset) := by
  unfold parseWhileStatement
  refine down_parseExpression.bind fun condition => ?_
  refine hblock.bind fun body => ?_
  split
  · exact .pure _
  · exact .pure _

theorem down_parseForStatement (hblock : Down stall bound block) (offset : Nat) :
    Down stall bound (parseForStatement block offset) := by
  unfold parseForStatement
  refine (down_consume (by decide) _).bind fun name => ?_
  refine (down_consume (by decide) _).bind fun _ => ?_
  refine down_parseTypeRef.bind fun type => ?_
  refine (down_consume (by decide) _).bind fun _ => ?_
  refine down_parseExpression.bind fun start => ?_
  refine (down_consume (by decide) _).bind fun _ => ?_
  refine down_parseExpression.bind fun stop => ?_
  refine hblock.bind fun body => ?_
  split
  · exact .pure _
  · exact .pure _

theorem shrinks_parseIfStatement (hblock : Down stall bound block) (fuel : Nat) :
    ∀ offset state, state.left ≤ bound → state.left < fuel →
      Settles stall (parseIfStatement block fuel offset) state (Shrinks state) := by
  induction fuel with
  | zero => exact fun _ _ _ hfuel => absurd hfuel (Nat.not_lt_zero _)
  | succ fuel ih =>
      intro offset state hbound hfuel
      refine (takes_parseExpression state).bind fun condition after hcondition => ?_
      have hafter := hcondition.1
      refine (hblock after (by omega)).bind fun thenBlock behind hthen => ?_
      have hbehind : behind.left ≤ after.left := hthen
      have hback : behind.left ≤ state.left := Nat.le_trans hbehind hafter
      cases condition with
      | none => exact Settles.pure hback
      | some condition =>
          cases thenBlock with
          | none => exact Settles.pure hback
          | some thenBlock =>
              refine settles_accept_bind (by decide) (fun _ later hlater => ?_)
                (fun _ => Settles.pure hback)
              apply settles_check_bind
              split
              · rename_i hif
                have hkind : later.current.kind ≠ .eof := by
                  rw [beq_iff_eq.mp hif]
                  decide
                refine settles_advance_bind hkind fun nested hnested => ?_
                refine (ih _ nested (by omega) (by omega)).bind fun elseIf last helse => ?_
                have hlast : last.left ≤ nested.left := helse
                refine Settles.pure ?_
                change last.left ≤ state.left
                omega
              · refine (hblock later (by omega)).bind fun elseBlock last helse => ?_
                have hlast : last.left ≤ later.left := helse
                refine Settles.pure ?_
                change last.left ≤ state.left
                omega

/-- The tokens at which a statement takes at least one of them. -/
def startsStatement (kind : TokenKind) : Bool :=
  isStatementStart kind || startsExpression kind

theorem reads_keyword {α : Type} {state : ParserState} {rest : Token → Parser (Option α)}
    (hkind : isStatementStart state.current.kind = true) (hbound : state.left ≤ bound)
    (hrest : ∀ token, Down stall bound (rest token)) :
    Settles stall (advance >>= rest) state (Reads startsStatement state) := by
  have hopen : state.current.kind ≠ .eof := by
    intro hend
    rw [hend] at hkind
    cases hkind
  refine settles_advance_bind hopen fun after hless => ?_
  refine (hrest _ after (by omega)).weaken fun _ last hlast => Or.inl ⟨?_, ?_⟩
  · rw [startsStatement, hkind, Bool.true_or]
  · exact Nat.lt_of_le_of_lt hlast hless

theorem parseStatement_of_expression {state : ParserState}
    (hkind : isStatementStart state.current.kind = false) :
    parseStatement block state = parseAssignmentOrExprStatement state := by
  unfold parseStatement
  change Parser.bind current _ state = _
  simp only [Parser.bind, current]
  refine congrFun ?_ state
  split
  all_goals first
    | (simp_all [isStatementStart]; done)
    | rfl

theorem reads_parseStatement (hblock : Down stall bound block) (state : ParserState)
    (hbound : state.left ≤ bound) :
    Settles stall (parseStatement block) state (Reads startsStatement state) := by
  cases hstart : isStatementStart state.current.kind with
  | false =>
      have hsame : startsStatement state.current.kind = startsExpression state.current.kind := by
        rw [startsStatement, hstart, Bool.false_or]
      unfold Settles
      rw [parseStatement_of_expression hstart]
      refine (reads_parseAssignmentOrExprStatement state).weaken fun value after hreads => ?_
      unfold Reads at *
      rw [hsame]
      exact hreads
  | true =>
      apply settles_current_bind
      split
      · exact reads_keyword hstart hbound fun token => down_parseLetStatement _
      · exact reads_keyword hstart hbound fun token => down_parseReturnStatement _
      · exact reads_keyword hstart hbound fun token => down_parseZoneStatement hblock _
      · exact reads_keyword hstart hbound fun token => down_parseTryStatement _
      · exact reads_keyword hstart hbound fun token => down_parseFreeStatement _
      · exact reads_keyword hstart hbound fun token => down_parseDeferStatement _
      · exact reads_keyword hstart hbound fun token after hafter =>
          shrinks_parseIfStatement hblock _ _ after hafter (Nat.lt_succ_self _)
      · exact reads_keyword hstart hbound fun token => down_parseWhileStatement hblock _
      · exact reads_keyword hstart hbound fun token => down_parseLoopStatement hblock _
      · exact reads_keyword hstart hbound fun token => down_parseForStatement hblock _
      · simp_all [isStatementStart]

theorem rounds_blockRound (hblock : Down True bound block) (statements : List StmtTree)
    (state : ParserState) (hbound : state.left ≤ bound) :
    Settles True (blockRound block true statements) state (Rounds state) := by
  apply settles_current_bind
  split
  · exact Settles.pure (Nat.le_refl _)
  · rename_i hinside
    rw [Bool.true_and]
    split
    · exact True.intro
    · rename_i hwatch
      refine (reads_parseStatement hblock state hbound).bind fun statement after hreads => ?_
      obtain ⟨-, hless⟩ | ⟨hnot, rfl, hstays⟩ := hreads
      · cases statement with
        | none =>
            refine (settles_sync _).bind fun _ last hlast => Settles.pure ?_
            exact Nat.lt_of_le_of_lt hlast.1 hless
        | some statement => exact Settles.pure hless
      · -- nothing was read: the recovery passes over the token at which the round stands
        refine (settles_sync _).bind fun _ last hlast => Settles.pure ?_
        have hmoved := hlast.2
        rw [hstays.current, hstays.left] at hmoved
        simp only [startsStatement, Bool.or_eq_false_iff] at hnot
        refine hmoved ?_ ?_
        · intro hend
          simp [hend] at hinside
        · simp_all

end Statements

theorem takes_parseBlock (fuel : Nat) :
    Below True fuel (parseBlock true fuel) := by
  induction fuel with
  | zero => exact fun _ hfuel => absurd hfuel (Nat.not_lt_zero _)
  | succ fuel ih =>
      intro state hfuel
      rw [parseBlock]
      refine settles_consume_bind (by decide) (fun _ token after hless => ?_)
        (fun _ after hstays => Settles.pure (.none (Nat.le_of_eq hstays.left)))
      have hblock : Down True after.left (parseBlock true fuel) := fun last hlast =>
        (ih last (by omega)).weaken fun _ _ htakes => htakes.1
      refine (settles_loop (fuel + 1) (rounds_blockRound hblock) [] after (Nat.le_refl _)
        (by omega)).bind fun statements behind hbehind => ?_
      have hback : behind.left ≤ after.left := hbehind
      refine (takes_consume (by decide) _).bind fun _ last hclose => ?_
      have hlast := hclose.1
      exact Settles.pure (.of_lt (by omega) _)

section Declarations

variable {stall : Prop} {bound : Nat}

theorem rounds_segmentRound (path : Text × Text) (state : ParserState) :
    Settles stall (segmentRound path) state (Rounds state) := by
  refine settles_accept_bind (by decide) (fun _ after hless => ?_)
    (fun _ => Settles.pure (Nat.le_refl _))
  refine (takes_consume (by decide) _).bind fun segment last hsegment => ?_
  have hlast := Nat.lt_of_le_of_lt hsegment.1 hless
  cases segment with
  | none => exact Settles.pure (Nat.le_of_lt hlast)
  | some segment => exact Settles.pure hlast

theorem down_parseImportDecl (offset : Nat) : Down stall bound (parseImportDecl offset) := by
  have hpath : Down stall bound parseImportPath := by
    refine (down_consume (by decide) _).bind fun segment => ?_
    cases segment with
    | none => exact .pure _
    | some segment =>
        exact fun state _ => settles_loopTokens fun path after _ => rounds_segmentRound path after
  refine hpath.bind fun path => ?_
  cases path with
  | none => exact .pure _
  | some path =>
      refine (down_accept (by decide)).bind fun renames => ?_
      split
      · exact (down_consume (by decide) _).bind fun aliasName =>
          (down_requireSemicolon _).bind fun _ => .pure _
      · exact (down_requireSemicolon _).bind fun _ => .pure _

theorem down_parseConstDecl (isPublic : Bool) (offset : Nat) :
    Down stall bound (parseConstDecl isPublic offset) := by
  refine (down_consume (by decide) _).bind fun name => ?_
  cases name with
  | none => exact .pure _
  | some name =>
      refine (down_consume (by decide) _).bind fun colon => ?_
      cases colon with
      | none => exact .pure _
      | some colon =>
          refine down_parseTypeRef.bind fun type => ?_
          cases type with
          | none => exact .pure _
          | some type =>
              refine (down_consume (by decide) _).bind fun equal => ?_
              cases equal with
              | none => exact .pure _
              | some equal =>
                  exact down_parseExpression.bind fun initializer =>
                    (down_requireSemicolon _).bind fun _ => .pure _

theorem rounds_fieldRound (fields : List FieldTree) (state : ParserState) :
    Settles True (fieldRound true fields) state (Rounds state) := by
  apply settles_current_bind
  split
  · exact Settles.pure (Nat.le_refl _)
  · rw [Bool.true_and]
    split
    · exact True.intro
    · rename_i hwatch
      have hstarts : startsField state.current.kind = true := by simpa using hwatch
      have hround : ∀ (pushed : List FieldTree) (last : ParserState), last.left < state.left →
          Settles True (pure (Sum.inl pushed) : Parser (List FieldTree ⊕ List FieldTree)) last
            (Rounds state) := fun _ _ hless => Settles.pure hless
      refine settles_consume_bind (by decide) (fun _ fieldName after hless => ?_)
        (fun hname after hstays => ?_)
      · refine (takes_consume (by decide) _).bind fun _ behind hcolon => ?_
        have hbehind := hcolon.1
        refine (takes_parseTypeRef behind).bind fun type later htype => ?_
        have hlater := htype.1
        refine (shrinks_requireSemicolon _).bind fun _ last hclose => ?_
        have hlast : last.left ≤ later.left := hclose
        exact hround _ last (by omega)
      · have hsame := hstays.left
        refine settles_consume_bind (by decide) (fun _ colon behind hbehind => ?_)
          (fun hcolon behind hbehind => ?_)
        · refine (takes_parseTypeRef behind).bind fun type later htype => ?_
          have hlater := htype.1
          refine (shrinks_requireSemicolon _).bind fun _ last hclose => ?_
          have hlast : last.left ≤ later.left := hclose
          exact hround _ last (by omega)
        · have hthere := hstays.trans hbehind
          refine (reads_parseTypeRef behind).bind fun type later htype => ?_
          obtain ⟨-, hless⟩ | ⟨hnot, -, hlater⟩ := htype
          · refine (shrinks_requireSemicolon _).bind fun _ last hclose => ?_
            have hlast : last.left ≤ later.left := hclose
            have hleft := hthere.left
            exact hround _ last (by omega)
          · have hall := hthere.trans hlater
            refine (settles_requireSemicolon _).bind fun _ last hclose => ?_
            obtain ⟨-, hless⟩ | ⟨hsemicolon, -⟩ := hclose
            · have hleft := hall.left
              exact hround _ last (by omega)
            · rw [hall.current] at hsemicolon
              rw [hthere.current] at hnot
              rw [hstays.current] at hcolon
              simp [startsField, hnot, hcolon, hsemicolon] at hstarts

theorem down_parseStructDecl {fuel : Nat} (hfuel : bound < fuel) (isPublic : Bool)
    (offset : Nat) : Down True bound (parseStructDecl true fuel isPublic offset) := by
  refine (down_consume (by decide) _).bind fun name => ?_
  cases name with
  | none => exact .pure _
  | some name =>
      refine (down_consume (by decide) _).bind fun leftBrace => ?_
      cases leftBrace with
      | none => exact .pure _
      | some leftBrace =>
          have hfields : Down True bound (loop (fieldRound true) fuel []) :=
            fun state hbound => settles_loop fuel
              (fun fields after _ => rounds_fieldRound fields after) [] state hbound (by omega)
          exact hfields.bind fun fields => (down_consume (by decide) _).bind fun _ => .pure _

theorem rounds_parameterRound (parameters : List FieldTree) (state : ParserState) :
    Settles stall (parameterRound parameters) state (Rounds state) := by
  refine (takes_consume (by decide) _).bind fun name after hname => ?_
  have hafter := hname.1
  refine (takes_consume (by decide) _).bind fun _ behind hcolon => ?_
  have hbehind := hcolon.1
  refine (takes_parseTypeRef behind).bind fun type later htype => ?_
  have hlater := htype.1
  refine settles_accept_bind (by decide) (fun _ last hless => ?_) (fun _ => ?_)
  · refine Settles.pure ?_
    change last.left < state.left
    omega
  · refine Settles.pure ?_
    change later.left ≤ state.left
    omega

theorem down_parseParameters : Down stall bound parseParameters := by
  refine (down_check _).bind fun ends => ?_
  split
  · exact .pure _
  · exact fun state _ => settles_loopTokens fun parameters after _ =>
      rounds_parameterRound parameters after

theorem down_parseFunction {fuel : Nat} (hfuel : bound < fuel) (isPublic : Bool)
    (offset : Nat) : Down True bound (parseFunction true fuel isPublic offset) := by
  have hblock : Down True bound (parseBlock true fuel) := fun state hbound =>
    (takes_parseBlock fuel state (by omega)).weaken fun _ _ htakes => htakes.1
  refine (down_consume (by decide) _).bind fun colon => ?_
  cases colon with
  | none => exact .pure _
  | some colon =>
      refine down_parseTypeRef.bind fun returnType => ?_
      cases returnType with
      | none => exact .pure _
      | some returnType =>
          refine (down_consume (by decide) _).bind fun name => ?_
          cases name with
          | none => exact .pure _
          | some name =>
              refine (down_consume (by decide) _).bind fun lparen => ?_
              cases lparen with
              | none => exact .pure _
              | some lparen =>
                  refine down_parseParameters.bind fun parameters => ?_
                  refine (down_consume (by decide) _).bind fun rparen => ?_
                  cases rparen with
                  | none => exact .pure _
                  | some rparen => exact hblock.bind fun body => .pure _

theorem rounds_decl {α : Type} {state : ParserState} {decl : Token → Parser (Option α)}
    (program : ProgramTree) (push : ProgramTree → α → ProgramTree)
    (hkind : state.current.kind ≠ .eof) (hdecl : ∀ token, Down stall state.left (decl token)) :
    Settles stall (do
      let token ← advance
      let found ← decl token
      pushOrSync program push found) state (Rounds state) := by
  refine settles_advance_bind hkind fun after hless => ?_
  refine (hdecl _ after (Nat.le_of_lt hless)).bind fun found behind hbehind => ?_
  have hback : behind.left < state.left := Nat.lt_of_le_of_lt hbehind hless
  cases found with
  | none =>
      refine (settles_sync _).bind fun _ last hlast => Settles.pure ?_
      exact Nat.lt_of_le_of_lt hlast.1 hback
  | some found => exact Settles.pure hback

theorem rounds_programRound {fuel : Nat} (program : ProgramTree) (state : ParserState)
    (hfuel : state.left < fuel) :
    Settles True (programRound true fuel program) state (Rounds state) := by
  apply settles_current_bind
  split
  · exact Settles.pure (Nat.le_refl _)
  all_goals first
    | (rename_i hkind
       refine rounds_decl program _ (by rw [hkind]; decide) fun token => ?_)
    | skip
  · exact down_parseImportDecl _
  · exact down_parseConstDecl _ _
  · exact down_parseConstDecl _ _
  · exact down_parseStructDecl hfuel _ _
  · exact down_parseStructDecl hfuel _ _
  · exact down_parseFunction hfuel _ _
  · exact down_parseFunction hfuel _ _
  · refine settles_emit_bind fun after hstays => ?_
    refine (settles_sync _).bind fun _ last hlast => Settles.pure ?_
    have hmoved := hlast.2
    rw [hstays.current, hstays.left] at hmoved
    refine hmoved ?_ ?_
    · assumption
    · simp_all [isTopLevelStart]

end Declarations

theorem settles_parseProgram {fuel : Nat} (state : ParserState) (hfuel : state.left < fuel) :
    Settles True (parseProgram true fuel) state (Shrinks state) :=
  settles_loop fuel (fun program after hafter =>
    rounds_programRound program after (Nat.lt_of_le_of_lt hafter hfuel)) _ state
    (Nat.le_refl _) hfuel

end Parse

end Cnegative
