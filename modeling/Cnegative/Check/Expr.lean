import Cnegative.Check.Types

namespace Cnegative

namespace Check

open Library (Ref Frame Chain)
open Checker (Resolved resolveSourceNamedStruct resolveCanonicalNamedStruct
  resolveConstInModule resolveLocalFunction resolveModuleFunction publicConsts)

/-! Type checking of expressions.  Every function returns the type it found
together with the errors it reported; an expression never changes the scope. -/

def require (condition : Bool) (code : DiagCode) : List DiagCode :=
  if condition then [] else [code]

@[simp] theorem require_eq_nil (condition : Bool) (code : DiagCode) :
    require condition code = [] ↔ condition = true := by
  cases condition <;> simp [require]

def peerHint (peer : TypeRef) (expression : Expr) : Option TypeRef :=
  match peer, expression with
  | .u8, .int _ => some .u8
  | .ptr inner, .null => some (.ptr inner)
  | _, _ => none

def unaryResult (op : UnaryOp) (operand : TypeRef) : TypeRef × List DiagCode :=
  match op with
  | .negate => (.int, require (operand = .int) .E3004)
  | .not => (.bool, require (operand = .bool) .E3004)

def binaryResult (op : BinaryOp) (left right : TypeRef) : TypeRef × List DiagCode :=
  match op with
  | .add | .sub | .mul | .div | .mod =>
      (.int, require (left = .int) .E3004 ++ require (right = .int) .E3004)
  | .equal | .notEqual => (.bool, require (matchesEqualityOperands left right) .E3004)
  | .less | .lessEqual | .greater | .greaterEqual =>
      (.bool, require (left.isIntegerLike && decide (left = right)) .E3004)
  | .and | .or => (.bool, require (left = .bool) .E3004 ++ require (right = .bool) .E3004)

/-- The end of `cn_check_if_expression`, after both branches are checked. -/
def ifResult (expected : Option TypeRef) (thenType elseType : TypeRef) :
    TypeRef × List DiagCode :=
  if thenType = .void ∨ elseType = .void then (.unknown, [.E3029])
  else
    match expected with
    | some type =>
        if canAssignTo type thenType && canAssignTo type elseType then (type, [])
        else if thenType = elseType then (thenType, [])
        else (.unknown, [.E3030])
    | none =>
        if thenType = elseType then (thenType, [])
        else (.unknown, [.E3030])

/-- `cn_check_field_access` once the base has the type `base`; `provenOk` says
whether the base is a named result marked ok. -/
def fieldResult (ctx : Context) (base : TypeRef) (fieldName : Name) (provenOk : Bool) :
    TypeRef × List DiagCode :=
  match base with
  | .ptr inner => if fieldName = "value" then (inner, []) else (.unknown, [.E3009])
  | .result inner =>
      if fieldName = "ok" then (.bool, [])
      else if fieldName = "value" then (inner, require provenOk .E3024)
      else (.unknown, [.E3009])
  | .slice _ => if fieldName = "length" then (.int, []) else (.unknown, [.E3009])
  | .named qualifier name =>
      match resolveCanonicalNamedStruct ctx.project ctx.self qualifier name with
      | none => (.unknown, [.E3009])
      | some resolved =>
          match findStructField ctx.project resolved fieldName with
          | none => (.unknown, [.E3009])
          | some type => (type, [])
  | _ => (.unknown, [.E3009])

/-- Whether `expression` names a binding the scope has marked ok. -/
def namedResultIsOk (scope : Scope) : Expr → Bool
  | .name name =>
      match scope.find? name with
      | none => false
      | some found => scope.resultIsOk found.1
  | _ => false

def checkName (ctx : Context) (scope : Scope) (name : Name) : TypeRef × List DiagCode :=
  match scope.find? name with
  | some found => (found.2.type, [])
  | none =>
      match resolveConstInModule ctx.project ctx.self name with
      | some resolved => (constType ctx.project resolved, [])
      | none =>
          if (ctx.imported? name).isSome then (.unknown, [.E3014]) else (.unknown, [.E3002])

/-- `cn_check_address_target_storage`; no error stands for its `true`. -/
def checkAddressTargetStorage (ctx : Context) (scope : Scope) : Expr → List DiagCode
  | .name name =>
      match scope.find? name with
      | some found => require found.2.isMutable .E3035
      | none => require (resolveConstInModule ctx.project ctx.self name).isNone .E3036
  | .field base fieldName =>
      let isPointerValue : Bool :=
        match base with
        | .name name =>
            match scope.find? name with
            | some found =>
                match found.2.type with
                | .ptr _ => fieldName = "value"
                | _ => false
            | none => false
        | _ => false
      if isPointerValue then []
      else if (ctx.sourceConst? base fieldName).isSome then [.E3036]
      else checkAddressTargetStorage ctx scope base
  | .index base _ => checkAddressTargetStorage ctx scope base
  | .deref _ => []
  | _ => [.E3031]

/-- A function's parameter types as its own module's validation left them. -/
def paramTypes (project : Project) (resolved : Resolved FunctionDecl) : List TypeRef :=
  resolved.2.parameters.map fun param => canonType project resolved.1 param.type

def returnTypeOf (project : Project) (resolved : Resolved FunctionDecl) : TypeRef :=
  canonType project resolved.1 resolved.2.returnType

/-- What `cn_check_call` makes of a callee: a builtin, a function, or errors. -/
inductive Callee where
  | builtin (name : Name)
  | function (resolved : Resolved FunctionDecl)
  | rejected (code : DiagCode)
  | notCallable

def builtinNames : List Name := ["print", "println", "input", "str_copy", "str_concat"]

def classifyCallee (ctx : Context) : Expr → Callee
  | .name callee =>
      if builtinNames.contains callee then .builtin callee
      else if (ctx.imported? callee).isSome then .rejected .E3014
      else if (resolveConstInModule ctx.project ctx.self callee).isSome then .rejected .E3014
      else
        match resolveLocalFunction ctx.project ctx.self callee with
        | none => .rejected .E3002
        | some resolved => .function resolved
  | .field (.name moduleName) functionName =>
      match ctx.imported? moduleName with
      | none => .rejected .E3014
      | some imported =>
          let exportsConst : Bool :=
            match ctx.project.modules[imported]? with
            | none => false
            | some module => ((publicConsts module.program).lookup functionName).isSome
          if exportsConst then .rejected .E3014
          else
            match resolveModuleFunction ctx.project ctx.self moduleName functionName with
            | none => .rejected .E3002
            | some resolved => .function resolved
  | _ => .notCallable

/-- Argument count, argument hint and result of a builtin. -/
def builtinSignature (name : Name) : Nat × Option TypeRef × TypeRef :=
  if name = "print" ∨ name = "println" then (1, none, .void)
  else if name = "input" then (0, none, .str)
  else if name = "str_copy" then (1, some .str, .str)
  else (2, some .str, .str)

mutual

def checkExpr (ctx : Context) (scope : Scope) (expected : Option TypeRef) :
    Expr → TypeRef × List DiagCode
  | .int value =>
      if expected = some .u8 then
        (.u8, require (decide (0 ≤ value.toInt) && decide (value.toInt ≤ 255)) .E3028)
      else (.int, [])
  | .bool _ => (.bool, [])
  | .string _ => (.str, [])
  | .null =>
      match expected with
      | some (.ptr inner) => (.ptr inner, [])
      | _ => (.null, [])
  | .name name => checkName ctx scope name
  | .unary op operand =>
      let checked := checkExpr ctx scope none operand
      let result := unaryResult op checked.1
      (result.1, checked.2 ++ result.2)
  | .binary op left right =>
      let first := checkExpr ctx scope none left
      let second := checkExpr ctx scope (peerHint first.1 right) right
      let third :=
        match peerHint second.1 left with
        | none => (first.1, [])
        | some hint => checkExpr ctx scope (some hint) left
      let result := binaryResult op third.1 second.1
      (result.1, first.2 ++ second.2 ++ third.2 ++ result.2)
  | .ifExpr condition thenExpr elseExpr =>
      let checked := checkExpr ctx scope (some .bool) condition
      let first := checkExpr ctx (scope.guarded condition true) expected thenExpr
      let elseHint :=
        match expected with
        | some type => some type
        | none => peerHint first.1 elseExpr
      let second := checkExpr ctx (scope.guarded condition false) elseHint elseExpr
      let third :=
        match expected, peerHint second.1 thenExpr with
        | none, some hint => checkExpr ctx (scope.guarded condition true) (some hint) thenExpr
        | _, _ => (first.1, [])
      let result := ifResult expected third.1 second.1
      (result.1,
        checked.2 ++ require (checked.1 = .bool) .E3005 ++ first.2 ++ second.2 ++ third.2 ++
          result.2)
  | .call callee arguments =>
      match classifyCallee ctx callee with
      | .builtin name =>
          let signature := builtinSignature name
          (signature.2.2,
            if arguments.length = signature.1 then
              checkBuiltinArguments ctx scope signature.2.1 arguments
            else [.E3008])
      | .function resolved =>
          (returnTypeOf ctx.project resolved,
            require (resolved.2.parameters.length = arguments.length) .E3008 ++
              checkCallArguments ctx scope (paramTypes ctx.project resolved) arguments)
      | .rejected code => (.unknown, [code])
      | .notCallable => (.unknown, .E3014 :: checkBuiltinArguments ctx scope none arguments)
  | .arrayLiteral items repeatCount =>
      let itemCount := repeatCount.getD items.length
      match expected with
      | some (.array inner size) =>
          (.array inner size,
            require (itemCount = size) .E3011 ++
              (checkItems ctx scope (some inner) (some inner) items).2)
      | _ =>
          let checked := checkItems ctx scope none none items
          (.array (checked.1.getD .unknown) itemCount, checked.2)
  | .index base index =>
      let first := checkExpr ctx scope none base
      let second := checkExpr ctx scope (some .int) index
      let errors := first.2 ++ second.2 ++ require (second.1 = .int) .E3004
      match first.1 with
      | .array inner _ | .slice inner => (inner, errors)
      | _ => (.unknown, errors ++ [.E3010])
  | .sliceView base start stop =>
      let first := checkExpr ctx scope none base
      let errors := first.2 ++ checkBound ctx scope start ++ checkBound ctx scope stop
      match first.1 with
      | .array inner _ | .slice inner => (.slice inner, errors)
      | _ => (.unknown, errors ++ [.E3010])
  | .field base fieldName =>
      match ctx.sourceConst? base fieldName with
      | some resolved => (constType ctx.project resolved, [])
      | none =>
          let namesModule : Bool :=
            match base with
            | .name qualifier => (ctx.imported? qualifier).isSome
            | _ => false
          if namesModule then (.unknown, [.E3014])
          else
            let checked := checkExpr ctx scope none base
            let result := fieldResult ctx checked.1 fieldName (namedResultIsOk scope base)
            (result.1, checked.2 ++ result.2)
  | .structLiteral moduleName typeName fields =>
      match resolveSourceNamedStruct ctx.project ctx.self moduleName typeName with
      | none => (.unknown, [.E3012])
      | some resolved =>
          let checked := checkFieldInits ctx scope resolved [] fields
          let missing := (resolved.2.fields.zipIdx.filter
            fun entry => !checked.1.contains entry.2).map fun _ => DiagCode.E3004
          (.named (Check.moduleName ctx.project resolved.1) resolved.2.name,
            checked.2 ++ missing)
  | .ok value =>
      match expected with
      | some (.result inner) =>
          let checked := checkExpr ctx scope (some inner) value
          (.result inner, checked.2 ++ require (canAssignTo inner checked.1) .E3004)
      | _ =>
          let checked := checkExpr ctx scope none value
          (.result checked.1, checked.2)
  | .err =>
      match expected with
      | some (.result inner) => (.result inner, [])
      | _ => (.unknown, [.E3015])
  | .alloc type => (.ptr (ctx.canon type), ctx.validate type)
  | .zalloc type =>
      (.ptr (ctx.canon type),
        require (decide (0 < scope.zoneDepth)) .E3041 ++ ctx.validate type)
  | .addr target =>
      let storage := checkAddressTargetStorage ctx scope target
      if storage = [] then
        let checked := checkExpr ctx scope none target
        (.ptr checked.1, checked.2)
      else (.unknown, storage)
  | .deref target =>
      let checked := checkExpr ctx scope none target
      match checked.1 with
      | .ptr inner => (inner, checked.2)
      | _ => (.unknown, checked.2 ++ [.E3032])

def checkBound (ctx : Context) (scope : Scope) : Option Expr → List DiagCode
  | none => []
  | some bound =>
      let checked := checkExpr ctx scope (some .int) bound
      checked.2 ++ require (checked.1 = .int) .E3004

/-- The item loop of `cn_check_array_literal`; `element` is its `element_type`. -/
def checkItems (ctx : Context) (scope : Scope) (expected element : Option TypeRef) :
    List Expr → Option TypeRef × List DiagCode
  | [] => (element, [])
  | item :: rest =>
      let checked := checkExpr ctx scope expected item
      let errors :=
        match element with
        | none => []
        | some type => require (checked.1 = .unknown || checked.1 = type) .E3004
      let element :=
        match element with
        | some type => some type
        | none => if checked.1 = .unknown then none else some checked.1
      let remaining := checkItems ctx scope expected element rest
      (remaining.1, checked.2 ++ errors ++ remaining.2)

/-- The field loop of `cn_check_struct_literal`; the first component lists the
indices of the fields seen. -/
def checkFieldInits (ctx : Context) (scope : Scope) (resolved : Resolved StructDecl)
    (seen : List Nat) : List (Name × Expr) → List Nat × List DiagCode
  | [] => (seen, [])
  | (fieldName, value) :: rest =>
      match resolved.2.fields.findIdx? (fun field => field.name == fieldName),
          findStructField ctx.project resolved fieldName with
      | some index, some type =>
          if seen.contains index then
            let remaining := checkFieldInits ctx scope resolved seen rest
            (remaining.1, .E3003 :: remaining.2)
          else
            let checked := checkExpr ctx scope (some type) value
            let remaining := checkFieldInits ctx scope resolved (index :: seen) rest
            (remaining.1,
              checked.2 ++ require (canAssignTo type checked.1) .E3004 ++ remaining.2)
      | _, _ =>
          let remaining := checkFieldInits ctx scope resolved seen rest
          (remaining.1, .E3009 :: remaining.2)

/-- `cn_check_call_arguments`, over as many arguments as there are parameters. -/
def checkCallArguments (ctx : Context) (scope : Scope) :
    List TypeRef → List Expr → List DiagCode
  | type :: types, argument :: rest =>
      let checked := checkExpr ctx scope (some type) argument
      checked.2 ++ require (canAssignTo type checked.1) .E3004 ++
        require (!(decide (0 < exprZoneDepth ctx scope argument type) &&
          ctx.mayCarryZoneValue type)) .E3045 ++
        checkCallArguments ctx scope types rest
  | _, _ => []

def checkBuiltinArguments (ctx : Context) (scope : Scope) (hint : Option TypeRef) :
    List Expr → List DiagCode
  | [] => []
  | argument :: rest =>
      let checked := checkExpr ctx scope hint argument
      let errors :=
        match hint with
        | none => []
        | some type => require (checked.1 = type) .E3004
      checked.2 ++ errors ++ checkBuiltinArguments ctx scope hint rest

end

end Check

end Cnegative
