import Cnegative.Lex.Token

namespace Cnegative

def TokenKind.name : TokenKind → String
  | .eof => "eof" | .identifier => "identifier" | .intLiteral => "int-literal"
  | .stringLiteral => "string-literal" | .true => "true" | .false => "false" | .null => "null"
  | .fn => "fn" | .pfn => "pfn" | .const => "const" | .pconst => "pconst" | .let => "let"
  | .mut => "mut" | .return => "return" | .if => "if" | .else => "else" | .while => "while"
  | .loop => "loop" | .for => "for" | .in => "in" | .struct => "struct" | .pstruct => "pstruct"
  | .import => "import" | .as => "as" | .int => "int" | .u8 => "u8" | .byte => "byte"
  | .bool => "bool" | .str => "str" | .void => "void" | .result => "result" | .ok => "ok"
  | .err => "err" | .ptr => "ptr" | .alloc => "alloc" | .zalloc => "zalloc" | .addr => "addr"
  | .deref => "deref" | .free => "free" | .defer => "defer" | .try => "try" | .zone => "zone"
  | .slice => "slice" | .lparen => "(" | .rparen => ")" | .lbrace => "\x7b" | .rbrace => "\x7d"
  | .lbracket => "[" | .rbracket => "]" | .colon => ":" | .semicolon => ";" | .comma => ","
  | .dot => "." | .range => ".." | .plus => "+" | .minus => "-" | .star => "*" | .slash => "/"
  | .percent => "%" | .bang => "!" | .equal => "=" | .equalEqual => "==" | .bangEqual => "!="
  | .less => "<" | .lessEqual => "<=" | .greater => ">" | .greaterEqual => ">="
  | .ampAmp => "&&" | .pipePipe => "||"

namespace Parse

structure Diagnostic where
  code : String
  offset : Nat
  message : String
  deriving DecidableEq, Repr

/-- `cn_parser` over a buffer that ends with an EOF token: `rest` is what stands between
`index` and that token. -/
structure ParserState where
  rest : List Token
  last : { token : Token // token.kind = .eof }
  diagnostics : List Diagnostic

/-- A run ends, is out of fuel, or stands where the watched parser refuses to go on. -/
inductive Outcome (α : Type) where
  | done (value : α) (after : ParserState)
  | outOfFuel
  | stalled

def Outcome.isStalled {α : Type} : Outcome α → Bool
  | .stalled => true
  | _ => false

def Parser (α : Type) := ParserState → Outcome α

namespace Parser

variable {α β : Type}

def pure (value : α) : Parser α := fun state => .done value state

def bind (first : Parser α) (next : α → Parser β) : Parser β := fun state =>
  match first state with
  | .done value after => next value after
  | .outOfFuel => .outOfFuel
  | .stalled => .stalled

instance : Monad Parser where
  pure := pure
  bind := bind

end Parser

namespace ParserState

def current (state : ParserState) : Token :=
  state.rest.headD state.last.1

def peek (state : ParserState) (distance : Nat) : Token :=
  (state.rest[distance]?).getD state.last.1

/-- How many tokens stand before the final one. -/
def left (state : ParserState) : Nat :=
  state.rest.length

end ParserState

/-- A `while` or `for (;;)` loop; a round goes on with `inl` and ends the loop with `inr`. -/
def loop {σ ρ : Type} (body : σ → Parser (σ ⊕ ρ)) : Nat → σ → Parser ρ
  | 0, _ => fun _ => .outOfFuel
  | fuel + 1, carried => do
      match ← body carried with
      | .inl next => loop body fuel next
      | .inr result => return result

def loopTokens {σ ρ : Type} (body : σ → Parser (σ ⊕ ρ)) (carried : σ) : Parser ρ :=
  fun state => loop body (state.left + 1) carried state

def current : Parser Token := fun state => .done state.current state

def peek (distance : Nat) : Parser Token := fun state => .done (state.peek distance) state

def emit (code : String) (offset : Nat) (message : String) : Parser Unit := fun state =>
  .done () { state with diagnostics := state.diagnostics ++ [⟨code, offset, message⟩] }

/-- `cn_parser_check`, also `cn_parser_is_at_end` for the kind of the final token. -/
def check (kind : TokenKind) : Parser Bool := fun state => .done (state.current.kind == kind) state

/-- `cn_parser_advance`; its callers have seen a token other than EOF. -/
def advance : Parser Token := fun state =>
  .done state.current
    (if state.current.kind = .eof then state else { state with rest := state.rest.tail })

/-- `cn_parser_match`. -/
def accept (kind : TokenKind) : Parser Bool := do
  if ← check kind then
    let _ ← advance
    return true
  else return false

def consume (kind : TokenKind) (message : String) : Parser (Option Token) := do
  if ← check kind then
    let token ← advance
    return some token
  else
    let token ← current
    emit "E1001" token.offset (message ++ ", got '" ++ token.kind.name ++ "'")
    return none

def requireSemicolon (message : String) : Parser Unit := do
  let _ ← consume .semicolon message

def isTopLevelStart : TokenKind → Bool
  | .import | .const | .pconst | .struct | .pstruct | .fn | .pfn | .eof => true
  | _ => false

def isStatementStart : TokenKind → Bool
  | .let | .return | .free | .defer | .try | .zone | .if | .while | .loop | .for => true
  | _ => false

/-- The loop of `cn_parser_sync_statement` and `cn_parser_sync_top_level`: the tokens from
the first one at which it stops, past a semicolon. -/
def skipUntil (stops : TokenKind → Bool) : List Token → List Token
  | [] => []
  | token :: rest =>
      if token.kind = .eof then token :: rest
      else if token.kind = .semicolon then rest
      else if stops token.kind then token :: rest
      else skipUntil stops rest

def sync (stops : TokenKind → Bool) : Parser Unit := fun state =>
  .done () { state with rest := skipUntil stops state.rest }

def syncStatement : Parser Unit :=
  sync fun kind => kind == .rbrace || isStatementStart kind || isTopLevelStart kind

def syncTopLevel : Parser Unit := sync isTopLevelStart

/-! What a run does to the number of tokens left.  `Settles` is a weakest precondition: the
run ends in a state that meets `post`, or stalls where `stall` allows it. -/

section Settles

variable {α β σ ρ : Type} {stall : Prop} {state : ParserState}

def Settles (stall : Prop) (run : Parser α) (state : ParserState)
    (post : α → ParserState → Prop) : Prop :=
  match run state with
  | .done value after => post value after
  | .outOfFuel => False
  | .stalled => stall

theorem Settles.pure {post : α → ParserState → Prop} {value : α} (hpost : post value state) :
    Settles stall (Pure.pure value : Parser α) state post :=
  hpost

theorem Settles.bind {first : Parser α} {next : α → Parser β} {middle : α → ParserState → Prop}
    {post : β → ParserState → Prop} (hfirst : Settles stall first state middle)
    (hnext : ∀ value after, middle value after → Settles stall (next value) after post) :
    Settles stall (first >>= next) state post := by
  change Settles stall (first.bind next) state post
  unfold Settles Parser.bind at *
  cases hrun : first state with
  | done value after =>
      rw [hrun] at hfirst
      exact hnext value after hfirst
  | outOfFuel =>
      rw [hrun] at hfirst
      exact hfirst
  | stalled =>
      rw [hrun] at hfirst
      exact hfirst

theorem Settles.weaken {run : Parser α} {strong post : α → ParserState → Prop}
    (hrun : Settles stall run state strong)
    (hweaken : ∀ value after, strong value after → post value after) :
    Settles stall run state post := by
  unfold Settles at *
  cases hresult : run state with
  | done value after =>
      rw [hresult] at hrun
      exact hweaken value after hrun
  | outOfFuel =>
      rw [hresult] at hrun
      exact hrun
  | stalled =>
      rw [hresult] at hrun
      exact hrun

def Shrinks (before : ParserState) : α → ParserState → Prop :=
  fun _ after => after.left ≤ before.left

/-- A result other than `NULL` took a token. -/
def Takes (before : ParserState) : Option α → ParserState → Prop :=
  fun value after => after.left ≤ before.left ∧ (value.isSome = true → after.left < before.left)

/-- A round goes on only after it took a token. -/
def Rounds (before : ParserState) : σ ⊕ ρ → ParserState → Prop
  | .inl _, after => after.left < before.left
  | .inr _, after => after.left ≤ before.left

theorem settles_loop {body : σ → Parser (σ ⊕ ρ)} (fuel : Nat) {bound : Nat}
    (hbody : ∀ carried state, state.left ≤ bound →
      Settles stall (body carried) state (Rounds state)) :
    ∀ carried state, state.left ≤ bound → state.left < fuel →
      Settles stall (loop body fuel carried) state (Shrinks state) := by
  induction fuel with
  | zero => exact fun _ _ _ hfuel => absurd hfuel (Nat.not_lt_zero _)
  | succ fuel ih =>
      intro carried state hbound hfuel
      refine (hbody carried state hbound).bind fun round after hround => ?_
      cases round with
      | inl next =>
          have hless : after.left < state.left := hround
          exact (ih next after (by omega) (by omega)).weaken fun _ last hlast =>
            Nat.le_trans hlast (Nat.le_of_lt hless)
      | inr result => exact Settles.pure hround

theorem settles_loopTokens {body : σ → Parser (σ ⊕ ρ)} {carried : σ}
    (hbody : ∀ carried after, after.left ≤ state.left →
      Settles stall (body carried) after (Rounds after)) :
    Settles stall (loopTokens body carried) state (Shrinks state) :=
  settles_loop (state.left + 1) hbody carried state (Nat.le_refl _) (Nat.lt_succ_self _)

theorem left_of_current {state : ParserState} (hkind : state.current.kind ≠ .eof) :
    0 < state.left := by
  cases hrest : state.rest with
  | nil =>
      rw [ParserState.current, hrest] at hkind
      exact absurd state.last.2 hkind
  | cons token rest => simp [ParserState.left, hrest]

structure Stays (before after : ParserState) : Prop where
  rest : after.rest = before.rest
  last : after.last = before.last

theorem Stays.refl (state : ParserState) : Stays state state := ⟨rfl, rfl⟩

theorem Stays.trans {first second third : ParserState} (hfirst : Stays first second)
    (hsecond : Stays second third) : Stays first third :=
  ⟨hsecond.rest.trans hfirst.rest, hsecond.last.trans hfirst.last⟩

theorem Stays.left {before after : ParserState} (hstays : Stays before after) :
    after.left = before.left := by
  rw [ParserState.left, hstays.rest, ParserState.left]

theorem Stays.current {before after : ParserState} (hstays : Stays before after) :
    after.current = before.current := by
  rw [ParserState.current, hstays.rest, hstays.last, ParserState.current]

theorem settles_current :
    Settles stall current state fun token after => token = state.current ∧ after = state :=
  ⟨rfl, rfl⟩

theorem settles_emit (code : String) (offset : Nat) (message : String) :
    Settles stall (emit code offset message) state fun _ after => Stays state after :=
  ⟨rfl, rfl⟩

theorem settles_check (kind : TokenKind) :
    Settles stall (check kind) state
      fun answer after => answer = (state.current.kind == kind) ∧ after = state :=
  ⟨rfl, rfl⟩

theorem settles_advance :
    Settles stall advance state fun _ after => after.left ≤ state.left ∧
      (state.current.kind ≠ .eof → after.left < state.left) := by
  unfold Settles advance
  dsimp only
  split
  · rename_i hend
    exact ⟨Nat.le_refl _, fun hkind => absurd hend hkind⟩
  · rename_i hkind
    have hpositive := left_of_current hkind
    simp only [ParserState.left, List.length_tail] at hpositive ⊢
    exact ⟨by omega, fun _ => by omega⟩

theorem settles_accept {kind : TokenKind} (hkind : kind ≠ .eof) :
    Settles stall (accept kind) state fun answer after =>
      (answer = true → after.left < state.left ∧ state.current.kind = kind) ∧
        (answer = false → after = state ∧ state.current.kind ≠ kind) := by
  refine (settles_check kind).bind fun answer after hcheck => ?_
  obtain ⟨hanswer, rfl⟩ := hcheck
  cases answer with
  | true =>
      have hsame : after.current.kind = kind := by simpa using hanswer.symm
      refine settles_advance.bind fun _ last hlast => ?_
      exact Settles.pure ⟨fun _ => ⟨hlast.2 (hsame ▸ hkind), hsame⟩, fun hfalse => by cases hfalse⟩
  | false =>
      refine Settles.pure ⟨fun htrue => ?_, fun _ => ⟨rfl, by simpa using hanswer.symm⟩⟩
      cases htrue

theorem settles_consume {kind : TokenKind} (hkind : kind ≠ .eof) (message : String) :
    Settles stall (consume kind message) state fun token after =>
      (state.current.kind = kind ∧ token.isSome = true ∧ after.left < state.left) ∨
        (state.current.kind ≠ kind ∧ token = none ∧ Stays state after) := by
  refine (settles_check kind).bind fun answer after hcheck => ?_
  obtain ⟨hanswer, rfl⟩ := hcheck
  cases answer with
  | true =>
      have hsame : after.current.kind = kind := by simpa using hanswer.symm
      refine settles_advance.bind fun token last hlast => ?_
      exact Settles.pure (Or.inl ⟨hsame, rfl, hlast.2 (hsame ▸ hkind)⟩)
  | false =>
      have hother : after.current.kind ≠ kind := by simpa using hanswer.symm
      refine settles_current.bind fun token same hsame => ?_
      obtain ⟨rfl, rfl⟩ := hsame
      refine (settles_emit _ _ _).bind fun _ last hlast => ?_
      exact Settles.pure (Or.inr ⟨hother, rfl, hlast⟩)

theorem takes_consume {kind : TokenKind} (hkind : kind ≠ .eof) (message : String) :
    Settles stall (consume kind message) state (Takes state) := by
  refine (settles_consume hkind message).weaken fun token after hafter => ?_
  obtain ⟨-, -, hless⟩ | ⟨-, rfl, hstays⟩ := hafter
  · exact ⟨Nat.le_of_lt hless, fun _ => hless⟩
  · exact ⟨Nat.le_of_eq hstays.left, fun hsome => by cases hsome⟩

theorem settles_requireSemicolon (message : String) :
    Settles stall (requireSemicolon message) state fun _ after =>
      (state.current.kind = .semicolon ∧ after.left < state.left) ∨
        (state.current.kind ≠ .semicolon ∧ Stays state after) := by
  refine (settles_consume (by decide) message).bind fun token after hafter => ?_
  obtain ⟨hkind, -, hless⟩ | ⟨hkind, -, hstays⟩ := hafter
  · exact Settles.pure (Or.inl ⟨hkind, hless⟩)
  · exact Settles.pure (Or.inr ⟨hkind, hstays⟩)

theorem shrinks_requireSemicolon (message : String) :
    Settles stall (requireSemicolon message) state (Shrinks state) := by
  refine (settles_requireSemicolon message).weaken fun _ after hafter => ?_
  obtain ⟨-, hless⟩ | ⟨-, hstays⟩ := hafter
  · exact Nat.le_of_lt hless
  · exact Nat.le_of_eq hstays.left

theorem length_skipUntil (stops : TokenKind → Bool) (tokens : List Token) :
    (skipUntil stops tokens).length ≤ tokens.length := by
  induction tokens with
  | nil => exact Nat.le_refl _
  | cons token rest ih =>
      rw [skipUntil]
      repeat' split
      all_goals simp only [List.length_cons]; omega

theorem settles_sync (stops : TokenKind → Bool) :
    Settles stall (sync stops) state fun _ after => after.left ≤ state.left ∧
      (state.current.kind ≠ .eof → stops state.current.kind = false → after.left < state.left) := by
  refine ⟨length_skipUntil stops state.rest, fun hkind hgoes => ?_⟩
  cases hrest : state.rest with
  | nil =>
      have hpositive := left_of_current hkind
      simp [ParserState.left, hrest] at hpositive
  | cons token rest =>
      have hcurrent : state.current = token := by simp [ParserState.current, hrest]
      rw [hcurrent] at hkind hgoes
      have hshort := length_skipUntil stops rest
      simp only [ParserState.left, hrest, skipUntil, if_neg hkind, hgoes, Bool.false_eq_true,
        if_false, List.length_cons]
      split
      · omega
      · omega

/-! Running the first step of a parser. -/

section First

variable {next : Token → Parser β} {post : β → ParserState → Prop}

theorem settles_current_bind (hnext : Settles stall (next state.current) state post) :
    Settles stall (current >>= next) state post :=
  hnext

theorem settles_peek_bind {distance : Nat}
    (hnext : Settles stall (next (state.peek distance)) state post) :
    Settles stall (peek distance >>= next) state post :=
  hnext

theorem settles_check_bind {kind : TokenKind} {next : Bool → Parser β}
    (hnext : Settles stall (next (state.current.kind == kind)) state post) :
    Settles stall (check kind >>= next) state post :=
  hnext

theorem settles_emit_bind {code : String} {offset : Nat} {message : String}
    {next : Unit → Parser β}
    (hnext : ∀ after, Stays state after → Settles stall (next ()) after post) :
    Settles stall (emit code offset message >>= next) state post :=
  hnext _ ⟨rfl, rfl⟩

theorem settles_advance_bind (hkind : state.current.kind ≠ .eof)
    (hnext : ∀ after, after.left < state.left → Settles stall (next state.current) after post) :
    Settles stall (advance >>= next) state post := by
  have hpositive := left_of_current hkind
  have hrun : (advance >>= next) state =
      next state.current { state with rest := state.rest.tail } := by
    change Parser.bind advance next state = _
    simp only [Parser.bind, advance, if_neg hkind]
  unfold Settles
  rw [hrun]
  refine hnext _ ?_
  simp only [ParserState.left, List.length_tail] at hpositive ⊢
  omega

theorem settles_accept_bind {kind : TokenKind} (hkind : kind ≠ .eof) {next : Bool → Parser β}
    (htrue : state.current.kind = kind →
      ∀ after, after.left < state.left → Settles stall (next true) after post)
    (hfalse : state.current.kind ≠ kind → Settles stall (next false) state post) :
    Settles stall (accept kind >>= next) state post := by
  refine (settles_accept hkind).bind fun answer after hanswer => ?_
  cases answer with
  | true =>
      obtain ⟨hless, hsame⟩ := hanswer.1 rfl
      exact htrue hsame after hless
  | false =>
      obtain ⟨hsame, hother⟩ := hanswer.2 rfl
      rw [hsame]
      exact hfalse hother

theorem settles_consume_bind {kind : TokenKind} (hkind : kind ≠ .eof) {message : String}
    {next : Option Token → Parser β}
    (hsome : state.current.kind = kind →
      ∀ token after, after.left < state.left → Settles stall (next (some token)) after post)
    (hnone : state.current.kind ≠ kind →
      ∀ after, Stays state after → Settles stall (next none) after post) :
    Settles stall (consume kind message >>= next) state post := by
  refine (settles_consume hkind message).bind fun token after hafter => ?_
  obtain ⟨hsame, htoken, hless⟩ | ⟨hother, rfl, hstays⟩ := hafter
  · obtain ⟨found, rfl⟩ := Option.isSome_iff_exists.mp htoken
    exact hsome hsame found after hless
  · exact hnone hother after hstays

end First

theorem Takes.none {before after : ParserState} (hle : after.left ≤ before.left) :
    Takes before (none : Option α) after :=
  ⟨hle, fun hsome => by cases hsome⟩

theorem Takes.of_lt {before after : ParserState} (hless : after.left < before.left)
    (value : Option α) : Takes before value after :=
  ⟨Nat.le_of_lt hless, fun _ => hless⟩

end Settles

end Parse

end Cnegative
