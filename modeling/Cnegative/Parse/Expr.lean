import Cnegative.Parse.State

namespace Cnegative

namespace Parse

/-! Types and expressions.  `expr` stands for the recursive call of
`cn_parse_expression`, which every construct makes behind a token of its own. -/

inductive TypeAtom where
  | int | u8 | bool | str | void
  deriving DecidableEq, Repr

inductive TypePrefix where
  | result | ptr | slice
  deriving DecidableEq, Repr

inductive UnaryTree where
  | negate | not | addr | deref
  deriving DecidableEq, Repr

mutual

/-- `cn_type_ref` as the parser leaves it, without its offset. -/
inductive TypeTree where
  | atom (kind : TypeAtom)
  | named (moduleName name : Text)
  | prefixed (kind : TypePrefix) (inner : TypeTree)
  | array (inner : TypeTree) (size : ExprTree)

/-- `cn_expr` with its offset.  A string is its lexeme; the line ends of a raw literal are
rewritten without reading another token. -/
inductive ExprTree where
  | int (offset : Nat) (value : BitVec 64)
  | bool (offset : Nat) (value : Bool)
  | string (offset : Nat) (lexeme : Text)
  | null (offset : Nat)
  | err (offset : Nat)
  | name (offset : Nat) (name : Text)
  | alloc (offset : Nat) (type : TypeTree)
  | zalloc (offset : Nat) (type : TypeTree)
  | ok (offset : Nat) (value : ExprTree)
  | unary (offset : Nat) (op : UnaryTree) (operand : ExprTree)
  | binary (offset : Nat) (op : BinaryOp) (left right : ExprTree)
  | ifExpr (offset : Nat) (condition thenExpr elseExpr : ExprTree)
  | call (offset : Nat) (callee : ExprTree) (arguments : List ExprTree)
  | arrayLiteral (offset : Nat) (items : List ExprTree) (repeatCount : Option ExprTree)
  | structLiteral (offset : Nat) (moduleName typeName : Text) (fields : List (Text × ExprTree))
  | index (offset : Nat) (base index : ExprTree)
  | sliceView (offset : Nat) (base : ExprTree) (start stop : Option ExprTree)
  | field (offset : Nat) (base : ExprTree) (fieldName : Text)

end

namespace ExprTree

def offset : ExprTree → Nat
  | .int offset _ | .bool offset _ | .string offset _ | .null offset | .err offset
  | .name offset _ | .alloc offset _ | .zalloc offset _ | .ok offset _ | .unary offset _ _
  | .binary offset _ _ _ | .ifExpr offset _ _ _ | .call offset _ _ | .arrayLiteral offset _ _
  | .structLiteral offset _ _ _ | .index offset _ _ | .sliceView offset _ _ _
  | .field offset _ _ => offset

def isAssignable : ExprTree → Bool
  | .name _ _ | .field _ _ _ | .index _ _ _ | .unary _ .deref _ => true
  | _ => false

end ExprTree

def typeAtom : TokenKind → Option TypeAtom
  | .int => some .int
  | .u8 | .byte => some .u8
  | .bool => some .bool
  | .str => some .str
  | .void => some .void
  | _ => none

def parseTypeAtom : Parser (Option TypeTree) := do
  let token ← current
  match typeAtom token.kind with
  | some atom =>
      let _ ← advance
      return some (.atom atom)
  | none =>
      if ← accept .identifier then
        if ← accept .dot then
          match ← consume .identifier "expected type name after module qualifier" with
          | none => return none
          | some typeName => return some (.named token.lexeme typeName.lexeme)
        else return some (.named [] token.lexeme)
      else
        emit "E1003" token.offset ("expected a type, got '" ++ token.kind.name ++ "'")
        return none

/-- The test of the loop over prefixes, on the current token and the one behind it. -/
def typePrefix (token next : Token) : Option TypePrefix :=
  match token.kind with
  | .result => some .result
  | .ptr => some .ptr
  | .slice => some .slice
  | .identifier =>
      if token.lexeme = Name.text "result" ∧ next.kind ≠ .dot then some .result else none
  | _ => none

/-- The loop over prefixes, newest first; `room` is what is left of the 32 entries. -/
def parsePrefixes : Nat → List (TypePrefix × Nat) → Parser (List (TypePrefix × Nat))
  | 0, prefixes => return prefixes
  | room + 1, prefixes => do
      let token ← current
      let next ← peek 1
      match typePrefix token next with
      | none => return prefixes
      | some kind =>
          let _ ← advance
          parsePrefixes room ((kind, token.offset) :: prefixes)

def typeStartsHere : TokenKind → Bool
  | .int | .u8 | .byte | .bool | .str | .void | .identifier | .result => true
  | _ => false

def missingInner : TypePrefix → String × String
  | .result => ("E1007", "result type requires an inner type; write 'result T'")
  | .ptr => ("E1008", "ptr type requires an inner type; write 'ptr T'")
  | .slice => ("E1008", "slice type requires an inner type; write 'slice T'")

section Expressions

variable (expr : Parser (Option ExprTree))

def sizeRound (type : TypeTree) : Parser (TypeTree ⊕ TypeTree) := do
  if ← accept .lbracket then
    let size ← expr
    let _ ← consume .rbracket "expected ']' after array size"
    match size with
    | none => return .inr type
    | some size => return .inl (.array type size)
  else return .inr type

def parseTypeBody (prefixes : List (TypePrefix × Nat)) : Parser (Option TypeTree) := do
  match ← parseTypeAtom with
  | none => return none
  | some atom =>
      let type ← loopTokens (sizeRound expr)
        (prefixes.foldl (fun inner entry => .prefixed entry.1 inner) atom)
      return some type

def parseType : Parser (Option TypeTree) := do
  let prefixes ← parsePrefixes 32 []
  let token ← current
  match prefixes with
  | [] => parseTypeBody expr []
  | (kind, offset) :: outer =>
      if typeStartsHere token.kind then parseTypeBody expr ((kind, offset) :: outer)
      else
        emit (missingInner kind).1 offset (missingInner kind).2
        return none

/-- One round over the items behind the first one; the flag tells whether the list ended
without a missing item. -/
def itemRound (items : List ExprTree) : Parser (List ExprTree ⊕ (List ExprTree × Bool)) := do
  if ← accept .comma then
    match ← expr with
    | none => return .inr (items, false)
    | some item => return .inl (items ++ [item])
  else return .inr (items, true)

def parseArrayLiteral (offset : Nat) : Parser ExprTree := do
  if ← check .rbracket then
    let _ ← consume .rbracket "expected ']' after array literal"
    return .arrayLiteral offset [] none
  else
    match ← expr with
    | none => return .arrayLiteral offset [] none
    | some first =>
        if ← accept .semicolon then
          match ← expr with
          | none => return .arrayLiteral offset [first] none
          | some count =>
              let _ ← consume .rbracket "expected ']' after array literal"
              return .arrayLiteral offset [first] (some count)
        else
          let items ← loopTokens (itemRound expr) [first]
          if items.2 then
            let _ ← consume .rbracket "expected ']' after array literal"
            return .arrayLiteral offset items.1 none
          else return .arrayLiteral offset items.1 none

def initRound (fields : List (Text × ExprTree)) :
    Parser (List (Text × ExprTree) ⊕ List (Text × ExprTree)) := do
  if ← check .rbrace then return .inr fields
  else if ← check .eof then return .inr fields
  else
    let fieldName ← consume .identifier "expected struct field name"
    let _ ← consume .colon "expected ':' after struct field name"
    let value ← expr
    match fieldName, value with
    | some fieldName, some value =>
        let _ ← accept .comma
        return .inl (fields ++ [(fieldName.lexeme, value)])
    | _, _ => return .inr fields

def parseStructLiteral (moduleName : Text) (typeToken : Token) : Parser ExprTree := do
  let _ ← consume .lbrace "expected '\x7b' after struct literal type name"
  let fields ← loopTokens (initRound expr) []
  let _ ← consume .rbrace "expected '\x7d' after struct literal"
  return .structLiteral typeToken.offset moduleName typeToken.lexeme fields

def parseIfBranch (message : String) : Parser (Option ExprTree) := do
  match ← consume .lbrace message with
  | none => return none
  | some _ =>
      let expression ← expr
      let _ ← consume .rbrace "expected '\x7d' after if-expression branch"
      return expression

/-- `cn_parse_if_expression`; `fuel` bounds the chain of `else if`. -/
def parseIfExpression : Nat → Nat → Parser (Option ExprTree)
  | 0, _ => fun _ => .outOfFuel
  | fuel + 1, offset => do
      let condition ← expr
      let thenExpr ← parseIfBranch expr "expected '\x7b' after if-expression condition"
      match condition, thenExpr with
      | some condition, some thenExpr =>
          if ← accept .else then
            if ← check .if then
              let elseIf ← advance
              let elseExpr ← parseIfExpression fuel elseIf.offset
              return elseExpr.map (.ifExpr offset condition thenExpr)
            else
              let elseExpr ← parseIfBranch expr "expected '\x7b' or nested 'if' after 'else'"
              return elseExpr.map (.ifExpr offset condition thenExpr)
          else
            let token ← current
            emit "E1001" token.offset
              ("expected 'else' after if-expression branch, got '" ++ token.kind.name ++ "'")
            return none
      | _, _ => return none

/-- The identifier case of `cn_parse_primary`. -/
def parseNamed (token : Token) : Parser (Option ExprTree) := fun state =>
  let isLocal : Bool := (state.peek 1).kind == .lbrace && (state.peek 2).kind == .identifier &&
    (state.peek 3).kind == .colon
  let isQualified : Bool := (state.peek 1).kind == .dot && (state.peek 2).kind == .identifier &&
    (state.peek 3).kind == .lbrace && (state.peek 4).kind == .identifier &&
    (state.peek 5).kind == .colon
  let parse : Parser (Option ExprTree) := do
    let _ ← advance
    if isQualified then
      let _ ← advance
      match ← consume .identifier "expected type name after module qualifier" with
      | none => return none
      | some typeToken =>
          let literal ← parseStructLiteral expr token.lexeme typeToken
          return some literal
    else if isLocal then
      let literal ← parseStructLiteral expr [] token
      return some literal
    else return some (.name token.offset token.lexeme)
  parse state

def literalValue (digits : Text) : BitVec 64 :=
  digits.foldl (fun value digit => value * 10 + (BitVec.ofNat 64 digit.toNat - 48)) 0

def parsePrimary : Parser (Option ExprTree) := do
  let token ← current
  match token.kind with
  | .intLiteral =>
      let _ ← advance
      return some (.int token.offset (literalValue token.lexeme))
  | .true =>
      let _ ← advance
      return some (.bool token.offset true)
  | .false =>
      let _ ← advance
      return some (.bool token.offset false)
  | .stringLiteral =>
      let _ ← advance
      return some (.string token.offset token.lexeme)
  | .null =>
      let _ ← advance
      return some (.null token.offset)
  | .err =>
      let _ ← advance
      return some (.err token.offset)
  | .alloc =>
      let _ ← advance
      let type ← parseType expr
      return type.map (.alloc token.offset)
  | .zalloc =>
      let _ ← advance
      let type ← parseType expr
      return type.map (.zalloc token.offset)
  | .if =>
      let _ ← advance
      fun state => parseIfExpression expr (state.left + 1) token.offset state
  | .identifier => parseNamed expr token
  | .lbracket =>
      let _ ← advance
      let literal ← parseArrayLiteral expr token.offset
      return some literal
  | .lparen =>
      let _ ← advance
      let expression ← expr
      let _ ← consume .rparen "expected ')' after grouped expression"
      return expression
  | _ =>
      emit "E1002" token.offset ("expected an expression, got '" ++ token.kind.name ++ "'")
      return none

def consumeFieldName : Parser (Option Token) := do
  if ← check .identifier then
    let token ← advance
    return some token
  else if ← check .ok then
    let token ← advance
    return some token
  else
    let token ← current
    emit "E1001" token.offset
      ("expected field name after '.', got '" ++ token.kind.name ++ "'")
    return none

/-- The brackets behind `base`, once what stands before `..` or `]` is read. -/
def bracketRest (base : ExprTree) (start : Option ExprTree) : Parser (ExprTree ⊕ ExprTree) := do
  if ← accept .range then
    if ← check .rbracket then
      let _ ← consume .rbracket "expected ']' after slice expression"
      return .inl (.sliceView base.offset base start none)
    else
      match ← expr with
      | none => return .inr base
      | some stop =>
          let _ ← consume .rbracket "expected ']' after slice expression"
          return .inl (.sliceView base.offset base start (some stop))
  else
    let _ ← consume .rbracket "expected ']' after index expression"
    match start with
    | none =>
        emit "E1002" base.offset "expected an index expression before ']'"
        return .inr base
    | some index => return .inl (.index base.offset base index)

def callRest (callee : ExprTree) : Parser (ExprTree ⊕ ExprTree) := do
  if ← check .rparen then
    let _ ← consume .rparen "expected ')' after arguments"
    return .inl (.call callee.offset callee [])
  else
    match ← expr with
    | none => return .inr (.call callee.offset callee [])
    | some first =>
        let arguments ← loopTokens (itemRound expr) [first]
        if arguments.2 then
          let _ ← consume .rparen "expected ')' after arguments"
          return .inl (.call callee.offset callee arguments.1)
        else return .inr (.call callee.offset callee arguments.1)

def postfixRound (base : ExprTree) : Parser (ExprTree ⊕ ExprTree) := do
  if ← accept .lparen then callRest expr base
  else if ← accept .lbracket then
    if ← check .range then bracketRest expr base none
    else if ← check .rbracket then bracketRest expr base none
    else
      match ← expr with
      | none => return .inr base
      | some start => bracketRest expr base (some start)
  else if ← accept .dot then
    match ← consumeFieldName with
    | none => return .inr base
    | some fieldName => return .inl (.field base.offset base fieldName.lexeme)
  else return .inr base

def parsePostfix : Parser (Option ExprTree) := do
  match ← parsePrimary expr with
  | none => return none
  | some first =>
      let expression ← loopTokens (postfixRound expr) first
      return some expression

def unaryTree : TokenKind → Option UnaryTree
  | .minus => some .negate
  | .bang => some .not
  | .addr => some .addr
  | .deref => some .deref
  | _ => none

def parseUnaryWith : Nat → Parser (Option ExprTree)
  | 0 => fun _ => .outOfFuel
  | fuel + 1 => do
      let token ← current
      match unaryTree token.kind with
      | some op =>
          let _ ← advance
          let operand ← parseUnaryWith fuel
          return operand.map (.unary token.offset op)
      | none => parsePostfix expr

def parseUnary : Parser (Option ExprTree) := fun state =>
  parseUnaryWith expr (state.left + 1) state

end Expressions

def binaryFromToken : TokenKind → BinaryOp
  | .plus => .add | .minus => .sub | .star => .mul | .slash => .div | .percent => .mod
  | .equalEqual => .equal | .bangEqual => .notEqual | .less => .less | .lessEqual => .lessEqual
  | .greater => .greater | .greaterEqual => .greaterEqual | .ampAmp => .and | .pipePipe => .or
  | _ => .add

def chainRound (sub : Parser (Option ExprTree)) (kinds : List TokenKind) (left : ExprTree) :
    Parser (ExprTree ⊕ ExprTree) := do
  let token ← current
  if kinds.contains token.kind then
    let _ ← advance
    match ← sub with
    | none => return .inr left
    | some right => return .inl (.binary token.offset (binaryFromToken token.kind) left right)
  else return .inr left

def parseBinaryChain (sub : Parser (Option ExprTree)) (kinds : List TokenKind) :
    Parser (Option ExprTree) := do
  match ← sub with
  | none => return none
  | some first =>
      let expression ← loopTokens (chainRound sub kinds) first
      return some expression

section Levels

variable (expr : Parser (Option ExprTree))

def parseFactor : Parser (Option ExprTree) :=
  parseBinaryChain (parseUnary expr) [.star, .slash, .percent]

def parseTerm : Parser (Option ExprTree) :=
  parseBinaryChain (parseFactor expr) [.plus, .minus]

def parseComparison : Parser (Option ExprTree) :=
  parseBinaryChain (parseTerm expr) [.less, .lessEqual, .greater, .greaterEqual]

def parseEquality : Parser (Option ExprTree) :=
  parseBinaryChain (parseComparison expr) [.equalEqual, .bangEqual]

def parseAnd : Parser (Option ExprTree) :=
  parseBinaryChain (parseEquality expr) [.ampAmp]

def parseOr : Parser (Option ExprTree) :=
  parseBinaryChain (parseAnd expr) [.pipePipe]

def parseOkExpression : Parser (Option ExprTree) := do
  let token ← current
  if ← accept .ok then
    let value ← expr
    return value.map (.ok token.offset)
  else parseOr expr

end Levels

def parseExpressionWith : Nat → Parser (Option ExprTree)
  | 0 => fun _ => .outOfFuel
  | fuel + 1 => parseOkExpression (parseExpressionWith fuel)

/-- `cn_parse_expression`; it recurses only behind a token, so the tokens left are enough. -/
def parseExpression : Parser (Option ExprTree) := fun state =>
  parseExpressionWith (state.left + 1) state

end Parse

end Cnegative
