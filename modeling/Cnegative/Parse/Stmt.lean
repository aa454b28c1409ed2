import Cnegative.Parse.Terminates

namespace Cnegative

namespace Parse

/-! Statements, blocks and declarations.  `watch` marks the two loops that can stand still:
where it is set, the run stalls in front of a round that consumes nothing. -/

mutual

/-- `cn_stmt` with its offset. -/
inductive StmtTree where
  | letStmt (offset : Nat) (isMutable : Bool) (name : Text) (type : TypeTree)
      (initializer : ExprTree)
  | returnStmt (offset : Nat) (value : Option ExprTree)
  | tryStmt (offset : Nat) (name : Text) (initializer : ExprTree)
  | zone (offset : Nat) (body : BlockTree)
  | free (offset : Nat) (value : ExprTree)
  | defer (offset : Nat) (deferred : StmtTree)
  | ifStmt (offset : Nat) (condition : ExprTree) (thenBlock : BlockTree)
      (elseBlock : Option BlockTree)
  | while (offset : Nat) (condition : ExprTree) (body : BlockTree)
  | loop (offset : Nat) (body : BlockTree)
  | for (offset : Nat) (name : Text) (type : TypeTree) (start stop : ExprTree) (body : BlockTree)
  | assign (offset : Nat) (target value : ExprTree)
  | expr (offset : Nat) (value : ExprTree)

inductive BlockTree where
  | block (offset : Nat) (statements : List StmtTree)

end

structure ImportTree where
  moduleName : Text
  aliasName : Text
  hasAlias : Bool
  offset : Nat

structure ConstTree where
  isPublic : Bool
  name : Text
  type : TypeTree
  initializer : ExprTree
  offset : Nat

/-- `cn_struct_field` and `cn_param`. -/
structure FieldTree where
  name : Text
  type : TypeTree
  offset : Nat

structure StructTree where
  isPublic : Bool
  name : Text
  fields : List FieldTree
  offset : Nat

structure FunctionTree where
  isPublic : Bool
  returnType : TypeTree
  name : Text
  parameters : List FieldTree
  body : BlockTree
  offset : Nat

structure ProgramTree where
  imports : List ImportTree
  consts : List ConstTree
  structs : List StructTree
  functions : List FunctionTree

def parseLetStatement (offset : Nat) : Parser (Option StmtTree) := do
  let isMutable ← accept .mut
  let name ← consume .identifier "expected local name after 'let'"
  let _ ← consume .colon "expected ':' after local name"
  let type ← parseType parseExpression
  let _ ← consume .equal "expected '=' after variable type"
  let initializer ← parseExpression
  requireSemicolon "expected ';' after let statement"
  match name, type, initializer with
  | some name, some type, some initializer =>
      return some (.letStmt offset isMutable name.lexeme type initializer)
  | _, _, _ => return none

def parseReturnStatement (offset : Nat) : Parser (Option StmtTree) := do
  if ← check .semicolon then
    requireSemicolon "expected ';' after return statement"
    return some (.returnStmt offset none)
  else
    let value ← parseExpression
    requireSemicolon "expected ';' after return statement"
    return some (.returnStmt offset value)

def parseTryStatement (offset : Nat) : Parser (Option StmtTree) := do
  let name ← consume .identifier "expected binding name after 'try'"
  let _ ← consume .equal "expected '=' after try binding name"
  let initializer ← parseExpression
  requireSemicolon "expected ';' after try statement"
  match name, initializer with
  | some name, some initializer => return some (.tryStmt offset name.lexeme initializer)
  | _, _ => return none

def parseFreeStatement (offset : Nat) : Parser (Option StmtTree) := do
  let value ← parseExpression
  requireSemicolon "expected ';' after free statement"
  return value.map (.free offset)

def parseDeferStatement (offset : Nat) : Parser (Option StmtTree) := do
  if ← check .free then
    let token ← advance
    let deferred ← parseFreeStatement token.offset
    return deferred.map (.defer offset)
  else
    let value ← parseExpression
    requireSemicolon "expected ';' after defer statement"
    return value.map fun value => .defer offset (.expr value.offset value)

def parseAssignmentOrExprStatement : Parser (Option StmtTree) := do
  match ← parseExpression with
  | none => return none
  | some left =>
      if ← accept .equal then
        let value ← parseExpression
        requireSemicolon "expected ';' after assignment"
        match value with
        | none => return none
        | some value =>
            if left.isAssignable then return some (.assign left.offset left value)
            else
              emit "E1006" left.offset "invalid assignment target"
              return some (.assign left.offset left value)
      else
        requireSemicolon "expected ';' after expression statement"
        return some (.expr left.offset left)

/-- The watched parser refuses to go on. -/
def standsStill {α : Type} : Parser α := fun _ => .stalled

section Statements

variable (block : Parser (Option BlockTree))

def parseZoneStatement (offset : Nat) : Parser (Option StmtTree) := do
  let body ← block
  return body.map (.zone offset)

/-- `cn_parse_if_statement`; `fuel` bounds the chain of `else if`. -/
def parseIfStatement : Nat → Nat → Parser (Option StmtTree)
  | 0, _ => fun _ => .outOfFuel
  | fuel + 1, offset => do
      let condition ← parseExpression
      let thenBlock ← block
      match condition, thenBlock with
      | some condition, some thenBlock =>
          if ← accept .else then
            if ← check .if then
              let nestedIf ← advance
              let nested ← parseIfStatement fuel nestedIf.offset
              return some (.ifStmt offset condition thenBlock
                (nested.map fun nested => .block nestedIf.offset [nested]))
            else
              let elseBlock ← block
              return some (.ifStmt offset condition thenBlock elseBlock)
          else return some (.ifStmt offset condition thenBlock none)
      | _, _ => return none

def parseWhileStatement (offset : Nat) : Parser (Option StmtTree) := do
  let condition ← parseExpression
  let body ← block
  match condition, body with
  | some condition, some body => return some (.while offset condition body)
  | _, _ => return none

def parseLoopStatement (offset : Nat) : Parser (Option StmtTree) := do
  let body ← block
  return body.map (.loop offset)

def parseForStatement (offset : Nat) : Parser (Option StmtTree) := do
  let name ← consume .identifier "expected loop binding name after 'for'"
  let _ ← consume .colon "expected ':' after loop binding name"
  let type ← parseType parseExpression
  let _ ← consume .in "expected 'in' in range loop"
  let start ← parseExpression
  let _ ← consume .range "expected '..' in range loop"
  let stop ← parseExpression
  let body ← block
  match name, type, start, stop, body with
  | some name, some type, some start, some stop, some body =>
      return some (.for offset name.lexeme type start stop body)
  | _, _, _, _, _ => return none

def parseStatement : Parser (Option StmtTree) := do
  let token ← current
  match token.kind with
  | .let =>
      let token ← advance
      parseLetStatement token.offset
  | .return =>
      let token ← advance
      parseReturnStatement token.offset
  | .zone =>
      let token ← advance
      parseZoneStatement block token.offset
  | .try =>
      let token ← advance
      parseTryStatement token.offset
  | .free =>
      let token ← advance
      parseFreeStatement token.offset
  | .defer =>
      let token ← advance
      parseDeferStatement token.offset
  | .if =>
      let token ← advance
      fun state => parseIfStatement block (state.left + 1) token.offset state
  | .while =>
      let token ← advance
      parseWhileStatement block token.offset
  | .loop =>
      let token ← advance
      parseLoopStatement block token.offset
  | .for =>
      let token ← advance
      parseForStatement block token.offset
  | _ => parseAssignmentOrExprStatement

/-- One round of the loop of `cn_parse_block`. -/
def blockRound (watch : Bool) (statements : List StmtTree) :
    Parser (List StmtTree ⊕ List StmtTree) := do
  let token ← current
  if token.kind == .rbrace || token.kind == .eof then return .inr statements
  else if watch && isTopLevelStart token.kind then standsStill
  else
    match ← parseStatement block with
    | none =>
        syncStatement
        return .inl statements
    | some statement => return .inl (statements ++ [statement])

end Statements

/-- `cn_parse_block`; `fuel` bounds the nesting and the rounds of the loops. -/
def parseBlock (watch : Bool) : Nat → Parser (Option BlockTree)
  | 0 => fun _ => .outOfFuel
  | fuel + 1 => do
      match ← consume .lbrace "expected '\x7b' to start block" with
      | none => return none
      | some leftBrace =>
          let statements ← loop (blockRound (parseBlock watch fuel) watch) (fuel + 1) []
          let _ ← consume .rbrace "expected '\x7d' after block"
          return some (.block leftBrace.offset statements)

/-- One round over the segments of an import path; `none` is a missing segment. -/
def segmentRound (path : Text × Text) : Parser ((Text × Text) ⊕ Option (Text × Text)) := do
  if ← accept .dot then
    match ← consume .identifier "expected module path segment after '.'" with
    | none => return .inr none
    | some segment =>
        return .inl (path.1 ++ Name.text "." ++ segment.lexeme, segment.lexeme)
  else return .inr (some path)

/-- `cn_parser_parse_import_path`: the module name and the default alias. -/
def parseImportPath : Parser (Option (Text × Text)) := do
  match ← consume .identifier "expected module name after 'import'" with
  | none => return none
  | some segment => loopTokens segmentRound (segment.lexeme, segment.lexeme)

def parseImportDecl (offset : Nat) : Parser (Option ImportTree) := do
  match ← parseImportPath with
  | none => return none
  | some (moduleName, defaultAlias) =>
      if ← accept .as then
        let aliasName ← consume .identifier "expected alias after 'as'"
        requireSemicolon "expected ';' after import declaration"
        return some ⟨moduleName, (aliasName.map Token.lexeme).getD defaultAlias, aliasName.isSome, offset⟩
      else
        requireSemicolon "expected ';' after import declaration"
        return some ⟨moduleName, defaultAlias, false, offset⟩

def parseConstDecl (isPublic : Bool) (offset : Nat) : Parser (Option ConstTree) := do
  match ← consume .identifier "expected constant name" with
  | none => return none
  | some name =>
      match ← consume .colon "expected ':' after constant name" with
      | none => return none
      | some _ =>
          match ← parseType parseExpression with
          | none => return none
          | some type =>
              match ← consume .equal "expected '=' after constant type" with
              | none => return none
              | some _ =>
                  let initializer ← parseExpression
                  requireSemicolon "expected ';' after constant declaration"
                  return initializer.map fun initializer =>
                    ⟨isPublic, name.lexeme, type, initializer, offset⟩

/-- A field or a parameter is kept where both its name and its type were read. -/
def pushField (fields : List FieldTree) (name : Option Token) (type : Option TypeTree) :
    List FieldTree :=
  match name, type with
  | some name, some type => fields ++ [⟨name.lexeme, type, name.offset⟩]
  | _, _ => fields

def startsField (kind : TokenKind) : Bool :=
  startsType kind || kind == .colon || kind == .semicolon

/-- One round of the loop of `cn_parse_struct_decl`. -/
def fieldRound (watch : Bool) (fields : List FieldTree) :
    Parser (List FieldTree ⊕ List FieldTree) := do
  let token ← current
  if token.kind == .rbrace || token.kind == .eof then return .inr fields
  else if watch && !startsField token.kind then standsStill
  else
    let fieldName ← consume .identifier "expected struct field name"
    let _ ← consume .colon "expected ':' after struct field name"
    let fieldType ← parseType parseExpression
    requireSemicolon "expected ';' after struct field"
    return .inl (pushField fields fieldName fieldType)

/-- `cn_parse_struct_decl`; `fuel` bounds the rounds over the fields. -/
def parseStructDecl (watch : Bool) (fuel : Nat) (isPublic : Bool) (offset : Nat) :
    Parser (Option StructTree) := do
  match ← consume .identifier "expected struct name" with
  | none => return none
  | some name =>
      match ← consume .lbrace "expected '\x7b' after struct name" with
      | none => return none
      | some _ =>
          let fields ← loop (fieldRound watch) fuel []
          let _ ← consume .rbrace "expected '\x7d' after struct declaration"
          return some ⟨isPublic, name.lexeme, fields, offset⟩

/-- One round over the parameters; it ends where no comma follows. -/
def parameterRound (parameters : List FieldTree) :
    Parser (List FieldTree ⊕ List FieldTree) := do
  let name ← consume .identifier "expected parameter name"
  let _ ← consume .colon "expected ':' after parameter name"
  let type ← parseType parseExpression
  if ← accept .comma then return .inl (pushField parameters name type)
  else return .inr (pushField parameters name type)

def parseParameters : Parser (List FieldTree) := do
  if ← check .rparen then return []
  else loopTokens parameterRound []

/-- `cn_parse_function`; `fuel` is for its body. -/
def parseFunction (watch : Bool) (fuel : Nat) (isPublic : Bool) (offset : Nat) :
    Parser (Option FunctionTree) := do
  match ← consume .colon "expected ':' after function visibility keyword" with
  | none => return none
  | some _ =>
      match ← parseType parseExpression with
      | none => return none
      | some returnType =>
          match ← consume .identifier "expected function name" with
          | none => return none
          | some name =>
              match ← consume .lparen "expected '(' after function name" with
              | none => return none
              | some _ =>
                  let parameters ← parseParameters
                  match ← consume .rparen "expected ')' after parameters" with
                  | none => return none
                  | some _ =>
                      let body ← parseBlock watch fuel
                      return body.map fun body =>
                        ⟨isPublic, returnType, name.lexeme, parameters, body, offset⟩

/-- The declaration is pushed, or the parser goes on at the next one. -/
def pushOrSync {α : Type} (program : ProgramTree) (push : ProgramTree → α → ProgramTree)
    (decl : Option α) : Parser (ProgramTree ⊕ ProgramTree) := do
  match decl with
  | none =>
      syncTopLevel
      return .inl program
  | some decl => return .inl (push program decl)

def ProgramTree.pushImport (program : ProgramTree) (decl : ImportTree) : ProgramTree :=
  { program with imports := program.imports ++ [decl] }

def ProgramTree.pushConst (program : ProgramTree) (decl : ConstTree) : ProgramTree :=
  { program with consts := program.consts ++ [decl] }

def ProgramTree.pushStruct (program : ProgramTree) (decl : StructTree) : ProgramTree :=
  { program with structs := program.structs ++ [decl] }

def ProgramTree.pushFunction (program : ProgramTree) (decl : FunctionTree) : ProgramTree :=
  { program with functions := program.functions ++ [decl] }

/-- One round of the loop of `cn_parse_program`. -/
def programRound (watch : Bool) (fuel : Nat) (program : ProgramTree) :
    Parser (ProgramTree ⊕ ProgramTree) := do
  let token ← current
  match token.kind with
  | .eof => return .inr program
  | .import =>
      let token ← advance
      let decl ← parseImportDecl token.offset
      pushOrSync program .pushImport decl
  | .const =>
      let token ← advance
      let decl ← parseConstDecl false token.offset
      pushOrSync program .pushConst decl
  | .pconst =>
      let token ← advance
      let decl ← parseConstDecl true token.offset
      pushOrSync program .pushConst decl
  | .struct =>
      let token ← advance
      let decl ← parseStructDecl watch fuel false token.offset
      pushOrSync program .pushStruct decl
  | .pstruct =>
      let token ← advance
      let decl ← parseStructDecl watch fuel true token.offset
      pushOrSync program .pushStruct decl
  | .fn =>
      let token ← advance
      let decl ← parseFunction watch fuel false token.offset
      pushOrSync program .pushFunction decl
  | .pfn =>
      let token ← advance
      let decl ← parseFunction watch fuel true token.offset
      pushOrSync program .pushFunction decl
  | _ =>
      emit "E1002" token.offset ("unexpected top-level token '" ++ token.kind.name ++ "'")
      syncTopLevel
      return .inl program

def parseProgram (watch : Bool) (fuel : Nat) : Parser ProgramTree :=
  loop (programRound watch fuel) fuel ⟨[], [], [], []⟩

end Parse

end Cnegative
