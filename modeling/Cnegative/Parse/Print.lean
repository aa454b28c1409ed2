import Cnegative.Parse.Expr
import Cnegative.Runtime.Numeral

namespace Cnegative

namespace Parse

open Numeral (shortest)

/-! Expressions printed as tokens, with parentheses where a level of the grammar needs them. -/

def operatorKind : BinaryOp → TokenKind
  | .add => .plus | .sub => .minus | .mul => .star | .div => .slash | .mod => .percent
  | .equal => .equalEqual | .notEqual => .bangEqual | .less => .less | .lessEqual => .lessEqual
  | .greater => .greater | .greaterEqual => .greaterEqual | .and => .ampAmp | .or => .pipePipe

def unaryKind : UnaryTree → TokenKind
  | .negate => .minus | .not => .bang | .addr => .addr | .deref => .deref

/-- From `||`, at 1, to `*`, `/` and `%`, at 6. -/
def operatorLevel : BinaryOp → Nat
  | .or => 1
  | .and => 2
  | .equal | .notEqual => 3
  | .less | .lessEqual | .greater | .greaterEqual => 4
  | .add | .sub => 5
  | .mul | .div | .mod => 6

/-- `ok` is at 0, unary operators are at 7, and what a postfix may follow is at 8. -/
def level : ExprTree → Nat
  | .ok _ _ => 0
  | .binary _ op _ _ => operatorLevel op
  | .unary _ _ _ => 7
  | _ => 8

/-- A token whose text no tree records. -/
def keyword (kind : TokenKind) (offset : Nat) : Token := ⟨kind, offset, 1, 1, []⟩

/-- A token that no tree records at all. -/
def mark (kind : TokenKind) : Token := keyword kind 0

def identifier (offset : Nat) (name : Text) : Token := ⟨.identifier, offset, 1, 1, name⟩

/-- `ok` is a keyword, and a field name too. -/
def fieldToken (name : Text) : Token :=
  ⟨if name = Name.text "ok" then .ok else .identifier, 0, 1, 1, name⟩

/-- The tokens of an operand where the grammar asks for a level. -/
def within (required : Nat) (operand : ExprTree) (tokens : List Token) : List Token :=
  if level operand < required then mark .lparen :: (tokens ++ [mark .rparen]) else tokens

def isIf : ExprTree → Bool
  | .ifExpr _ _ _ _ => true
  | _ => false

def printQualifier (moduleName : Text) : List Token :=
  if moduleName = [] then [] else [identifier 0 moduleName, mark .dot]

mutual

def printExpr : ExprTree → List Token
  | .int offset value => [⟨.intLiteral, offset, 1, 1, shortest value.toInt⟩]
  | .bool offset value => [keyword (if value then .true else .false) offset]
  | .null offset => [keyword .null offset]
  | .err offset => [keyword .err offset]
  | .name offset name => [identifier offset name]
  | .ok offset value => keyword .ok offset :: printExpr value
  | .unary offset op operand =>
      keyword (unaryKind op) offset :: within 7 operand (printExpr operand)
  | .binary offset op left right =>
      within (operatorLevel op) left (printExpr left) ++
        keyword (operatorKind op) offset :: within (operatorLevel op + 1) right (printExpr right)
  | .ifExpr offset condition thenExpr elseExpr =>
      keyword .if offset :: (printExpr condition ++ mark .lbrace :: (printExpr thenExpr ++
        mark .rbrace :: mark .else :: (if isIf elseExpr then printExpr elseExpr
          else mark .lbrace :: (printExpr elseExpr ++ [mark .rbrace]))))
  | .call _ callee arguments =>
      within 8 callee (printExpr callee) ++
        mark .lparen :: (printItems arguments ++ [mark .rparen])
  | .arrayLiteral offset items repeatCount =>
      keyword .lbracket offset :: (printItems items ++
        (printCount repeatCount ++ [mark .rbracket]))
  | .structLiteral offset moduleName typeName fields =>
      printQualifier moduleName ++
        identifier offset typeName :: mark .lbrace :: (printFields fields ++ [mark .rbrace])
  | .index _ base index =>
      within 8 base (printExpr base) ++
        mark .lbracket :: (printExpr index ++ [mark .rbracket])
  | .sliceView _ base start stop =>
      within 8 base (printExpr base) ++
        mark .lbracket :: (printBound start ++
          mark .range :: (printBound stop ++ [mark .rbracket]))
  | .field _ base fieldName =>
      within 8 base (printExpr base) ++ [mark .dot, fieldToken fieldName]
  | .string _ _ | .alloc _ _ | .zalloc _ _ => []

def printItems : List ExprTree → List Token
  | [] => []
  | item :: rest => printExpr item ++ printMore rest

def printMore : List ExprTree → List Token
  | [] => []
  | item :: rest => mark .comma :: (printExpr item ++ printMore rest)

def printCount : Option ExprTree → List Token
  | none => []
  | some count => mark .semicolon :: printExpr count

def printBound : Option ExprTree → List Token
  | none => []
  | some bound => printExpr bound

def printFields : List (Text × ExprTree) → List Token
  | [] => []
  | (fieldName, value) :: rest =>
      identifier 0 fieldName :: mark .colon :: (printExpr value ++
        (if rest.isEmpty then [] else mark .comma :: printFields rest))

end

mutual

/-- A tree of the surface language, with the offsets that the parser gives: a postfix stands
where its base stands. -/
def isSurface : ExprTree → Bool
  | .int _ value => decide (0 ≤ value.toInt)
  | .bool _ _ | .null _ | .err _ | .name _ _ => true
  | .ok _ value => isSurface value
  | .unary _ _ operand => isSurface operand
  | .binary _ _ left right => isSurface left && isSurface right
  | .ifExpr _ condition thenExpr elseExpr =>
      isSurface condition && (isSurface thenExpr && isSurface elseExpr)
  | .call offset callee arguments =>
      decide (offset = callee.offset) && (isSurface callee && itemsSurface arguments)
  | .arrayLiteral _ items none => itemsSurface items
  | .arrayLiteral _ items (some count) =>
      decide (items.length = 1) && (itemsSurface items && isSurface count)
  | .structLiteral _ _ _ fields => !fields.isEmpty && fieldsSurface fields
  | .index offset base index =>
      decide (offset = base.offset) && (isSurface base && isSurface index)
  | .sliceView offset base start stop =>
      decide (offset = base.offset) &&
        (isSurface base && (boundSurface start && boundSurface stop))
  | .field offset base _ => decide (offset = base.offset) && isSurface base
  | .string _ _ | .alloc _ _ | .zalloc _ _ => false

def itemsSurface : List ExprTree → Bool
  | [] => true
  | item :: rest => isSurface item && itemsSurface rest

def boundSurface : Option ExprTree → Bool
  | none => true
  | some bound => isSurface bound

def fieldsSurface : List (Text × ExprTree) → Bool
  | [] => true
  | (_, value) :: rest => isSurface value && fieldsSurface rest

end

end Parse

end Cnegative
