import Cnegative.Check.Expr

namespace Cnegative

def TypeRef.isResult : TypeRef → Bool
  | .result _ => true
  | _ => false

def Expr.isOk : Expr → Bool
  | .ok _ => true
  | _ => false

mutual

def Stmt.guaranteesReturn : Stmt → Bool
  | .returnStmt _ => true
  | .ifStmt _ thenBlock elseBlock =>
      blockGuaranteesReturn thenBlock && elseGuaranteesReturn elseBlock
  | .loop body => blockGuaranteesReturn body
  | _ => false

def elseGuaranteesReturn : Option (List Stmt) → Bool
  | none => false
  | some block => blockGuaranteesReturn block

def blockGuaranteesReturn : List Stmt → Bool
  | [] => false
  | statement :: rest => statement.guaranteesReturn || blockGuaranteesReturn rest

end

namespace Check

open Library (Ref Frame Chain)
open Checker (Resolved resolveConstInModule)

/-! Type checking of statements.  A statement is checked in the scope left by
the ones before it; the errors are collected on the way. -/

structure AssignmentTarget where
  type : TypeRef
  binding : Option (BindingRef × Binding)
  scopeZoneDepth : Nat

def checkAssignmentTarget (ctx : Context) (scope : Scope) (target : Expr) :
    AssignmentTarget × List DiagCode :=
  match target with
  | .name name =>
      match scope.find? name with
      | some found => (⟨found.2.type, some found, found.2.scopeZoneDepth⟩, [])
      | none =>
          match resolveConstInModule ctx.project ctx.self name with
          | some resolved => (⟨constType ctx.project resolved, none, 0⟩, [.E3006])
          | none => (⟨.unknown, none, 0⟩, [.E3002])
  | .field base fieldName =>
      match ctx.sourceConst? base fieldName with
      | some resolved => (⟨constType ctx.project resolved, none, 0⟩, [.E3006])
      | none =>
          let checked := checkExpr ctx scope none target
          (⟨checked.1, none, storageZoneDepth ctx scope target⟩, checked.2)
  | .index _ _ | .deref _ =>
      let checked := checkExpr ctx scope none target
      (⟨checked.1, none, storageZoneDepth ctx scope target⟩, checked.2)
  | _ => (⟨.unknown, none, 0⟩, [.E3004])

/-- The scope after an accepted assignment to `found`. -/
def Scope.assigned (scope : Scope) (found : BindingRef × Binding) (value : Expr)
    (valueZoneDepth : Nat) : Scope :=
  let stored := scope.update found.1 fun binding => { binding with valueZoneDepth }
  if found.2.type.isResult then
    let cleared := Scope.invalidateResultProofs stored found.1
    if value.isOk then Scope.markResultOk cleared found.1 else cleared
  else stored

def checkAssign (ctx : Context) (scope : Scope) (target value : Expr) : Scope × List DiagCode :=
  let targetInfo := checkAssignmentTarget ctx scope target
  let mutability :=
    match targetInfo.1.binding with
    | none => []
    | some found => require found.2.isMutable .E3006
  let checked := checkExpr ctx scope (some targetInfo.1.type) value
  let valueDepth := exprZoneDepth ctx scope value targetInfo.1.type
  let errors := targetInfo.2 ++ mutability ++ checked.2 ++
    require (canAssignTo targetInfo.1.type checked.1) .E3004
  if 0 < valueDepth ∧ targetInfo.1.scopeZoneDepth < valueDepth then (scope, errors ++ [.E3044])
  else
    match targetInfo.1.binding with
    | none => (scope, errors)
    | some found => (Scope.assigned scope found value valueDepth, errors)

def checkLet (ctx : Context) (scope : Scope) (name : Name) (isMutable : Bool)
    (sourceType : TypeRef) (initializer : Expr) : Scope × List DiagCode :=
  let type := ctx.canon sourceType
  let checked := checkExpr ctx scope (some type) initializer
  let depth := exprZoneDepth ctx scope initializer type
  let defined := scope.define name type isMutable depth
  let errors := ctx.validate sourceType ++ checked.2 ++
    require (canAssignTo type checked.1) .E3004 ++ defined.2
  if !isMutable && decide (type = .bool) then
    (defined.1.updateBinding name fun binding =>
      { binding with resultGuardProof := buildResultProof defined.1 32 initializer }, errors)
  else (defined.1, errors)

def checkReturn (ctx : Context) (returnType : TypeRef) (scope : Scope) (value : Option Expr) :
    List DiagCode :=
  match value with
  | none => require (returnType = .void) .E3004
  | some value =>
      let checked := checkExpr ctx scope (some returnType) value
      checked.2 ++ require (canAssignTo returnType checked.1) .E3004 ++
        require (exprZoneDepth ctx scope value returnType = 0) .E3042

def checkTry (ctx : Context) (returnType : TypeRef) (scope : Scope) (name : Name)
    (initializer : Expr) : Scope × List DiagCode :=
  let checked := checkExpr ctx scope none initializer
  let errors := checked.2 ++ require (returnType.isResult) .E3033
  match checked.1 with
  | .result inner =>
      let defined := scope.define name inner false (exprZoneDepth ctx scope initializer inner)
      (defined.1, errors ++ defined.2)
  | _ =>
      let defined := scope.define name .unknown false 0
      (defined.1, errors ++ .E3034 :: defined.2)

def checkFree (ctx : Context) (scope : Scope) (value : Expr) : List DiagCode :=
  let checked := checkExpr ctx scope none value
  checked.2 ++
    if 0 < exprZoneDepth ctx scope value checked.1 then [.E3043]
    else
      match checked.1 with
      | .slice _ => [.E3037]
      | .result _ => [.E3038]
      | .ptr _ | .str => []
      | _ => [.E3019]

/-- The statement under `CN_STMT_DEFER`. -/
def checkDeferred (ctx : Context) (scope : Scope) : Deferred → List DiagCode
  | .expr value => (checkExpr ctx scope none value).2
  | .free value => checkFree ctx scope value

/-- `CN_STMT_FOR` up to the body: the loop scope. -/
def checkForHeader (ctx : Context) (scope : Scope) (name : Name) (sourceType : TypeRef)
    (start stop : Expr) : Scope × List DiagCode :=
  let type := ctx.canon sourceType
  let first := checkExpr ctx scope (some .int) start
  let last := checkExpr ctx scope (some .int) stop
  let defined := Scope.define (scope.push scope.zoneDepth) name type false 0
  (defined.1,
    ctx.validate sourceType ++ require (type = .int) .E3004 ++ first.2 ++ last.2 ++
      require (first.1 = .int) .E3004 ++ require (last.1 = .int) .E3004 ++ defined.2)

def checkCondition (ctx : Context) (scope : Scope) (condition : Expr) : List DiagCode :=
  let checked := checkExpr ctx scope (some .bool) condition
  checked.2 ++ require (checked.1 = .bool) .E3005

/-- The marks `CN_STMT_IF` leaves in the enclosing scope. -/
def Scope.afterIf (scope : Scope) (condition : Expr) (thenReturns elseReturns : Bool) : Scope :=
  let scope := if elseReturns then scope.markBranch scope condition true else scope
  if thenReturns then scope.markBranch scope condition false else scope

def Scope.pop (scope : Scope) : Scope :=
  scope.tail

mutual

/-- `cn_check_statement`; `returnType` is the current function's. -/
def checkStatement (ctx : Context) (returnType : TypeRef) (scope : Scope) :
    Stmt → Scope × List DiagCode
  | .letStmt name isMutable type initializer =>
      checkLet ctx scope name isMutable type initializer
  | .assign target value => checkAssign ctx scope target value
  | .returnStmt value => (scope, checkReturn ctx returnType scope value)
  | .expr value => (scope, (checkExpr ctx scope none value).2)
  | .defer statement => (scope, checkDeferred ctx scope statement)
  | .tryStmt name initializer => checkTry ctx returnType scope name initializer
  | .zone body =>
      let checked := checkStatements ctx returnType (scope.push (scope.zoneDepth + 1)) body
      (checked.1.pop, checked.2)
  | .ifStmt condition thenBlock elseBlock =>
      let conditionErrors := checkCondition ctx scope condition
      let first := checkStatements ctx returnType (scope.guarded condition true) thenBlock
      let second := checkElse ctx returnType first.1.pop condition elseBlock
      (second.1.afterIf condition (blockGuaranteesReturn thenBlock)
          (elseGuaranteesReturn elseBlock),
        conditionErrors ++ first.2 ++ second.2)
  | .whileStmt condition body =>
      let conditionErrors := checkCondition ctx scope condition
      let checked := checkStatements ctx returnType (scope.guarded condition true) body
      (checked.1.pop, conditionErrors ++ checked.2)
  | .loop body =>
      let checked := checkStatements ctx returnType (scope.push scope.zoneDepth) body
      (checked.1.pop, checked.2)
  | .forStmt name type start stop body =>
      let header := checkForHeader ctx scope name type start stop
      let checked :=
        checkStatements ctx returnType (header.1.push header.1.zoneDepth) body
      (checked.1.pop.pop, header.2 ++ checked.2)
  | .free value => (scope, checkFree ctx scope value)

def checkElse (ctx : Context) (returnType : TypeRef) (scope : Scope) (condition : Expr) :
    Option (List Stmt) → Scope × List DiagCode
  | none => (scope, [])
  | some block =>
      let checked := checkStatements ctx returnType (scope.guarded condition false) block
      (checked.1.pop, checked.2)

/-- The statement loop of `cn_check_block_with_guard`. -/
def checkStatements (ctx : Context) (returnType : TypeRef) (scope : Scope) :
    List Stmt → Scope × List DiagCode
  | [] => (scope, [])
  | statement :: rest =>
      let first := checkStatement ctx returnType scope statement
      let remaining := checkStatements ctx returnType first.1 rest
      (remaining.1, first.2 ++ remaining.2)

end

/-- The root scope of `cn_check_function`: its parameters, immutable. -/
def defineParams (ctx : Context) (scope : Scope) : List Param → Scope × List DiagCode
  | [] => (scope, [])
  | param :: rest =>
      let defined := scope.define param.name (ctx.canon param.type) false 0
      let remaining := defineParams ctx defined.1 rest
      (remaining.1, defined.2 ++ remaining.2)

def rootScope (ctx : Context) (function : FunctionDecl) : Scope × List DiagCode :=
  defineParams ctx (Scope.push [] 0) function.parameters

def checkFunction (ctx : Context) (function : FunctionDecl) : List DiagCode :=
  match function.body with
  | none =>
      let isBuiltinStdlib : Bool :=
        match ctx.module? with
        | none => false
        | some module => module.isBuiltinStdlib
      require (isBuiltinStdlib && function.isBuiltin) .E3020
  | some body =>
      let returnType := ctx.canon function.returnType
      let root := rootScope ctx function
      root.2 ++ (checkStatements ctx returnType root.1 body).2 ++
        require (returnType = .void || blockGuaranteesReturn body) .E3007

end Check

end Cnegative
