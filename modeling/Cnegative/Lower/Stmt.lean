import Cnegative.Check.Stmt
import Cnegative.Lower.Expr

namespace Cnegative

namespace Lower

open Library (Ref Frame Chain)
open Checker (Resolved)

/-! Lowering of statements: cleanup is spliced into the block in front of every
exit, so that the IR has neither `defer` nor `try`. -/

/-- `cn_ir_defer_entry`; `scope` is the scope at the `defer`, of which the source
keeps the snapshot `captureScope scope`. -/
inductive DeferEntry where
  | statement (deferred : Deferred) (scope : Scope)
  | zoneRelease (zoneName : Name)

/-- The entries of a `cn_ir_defer_frame`, newest first. -/
abbrev DeferFrame := List DeferEntry

/-- One cleanup statement put into the IR: the entry it comes from and the scope
at the place it was put to.  The source keeps no such record. -/
structure Emission where
  entry : DeferEntry
  site : Scope

structure Lowered (α : Type) where
  value : α
  scope : Scope
  nextTemp : Nat
  emissions : List Emission

def generatedName (kind : String) (index : Nat) : Name :=
  "__cn_" ++ kind ++ "_" ++ toString index

def zonePointer : TypeRef := .ptr .u8

def zoneReleaseStmt (zoneName : Name) : IrStmt :=
  .expr (.call .void .builtin "" "__zone_release" [.local zonePointer zoneName])

section

variable (ctx : Context) (constUse : ConstUse)

/-- `cn_ir_lower_statement` on the statement under a `defer`. -/
def lowerDeferred (scope : Scope) : Deferred → Option IrStmt
  | .expr value => (lowerExpr ctx constUse scope none value).map .expr
  | .free value => (lowerExpr ctx constUse scope none value).map .free

def emitEntry : DeferEntry → Option IrStmt
  | .statement deferred scope => lowerDeferred ctx constUse (captureScope scope) deferred
  | .zoneRelease zoneName => some (zoneReleaseStmt zoneName)

def emitEntries : DeferFrame → Option (List IrStmt)
  | [] => some []
  | entry :: rest => do
      let first ← emitEntry ctx constUse entry
      let remaining ← emitEntries rest
      return first :: remaining

/-- `cn_ir_emit_deferred_entries`, over a frame and its parents. -/
def emitFrames (frames : List DeferFrame) : Option (List IrStmt) :=
  emitEntries ctx constUse frames.flatten

def emissionsAt (site : Scope) (entries : DeferFrame) : List Emission :=
  entries.map fun entry => ⟨entry, site⟩

def lowerTry (returnType : TypeRef) (frames : List DeferFrame) (scope : Scope) (nextTemp : Nat)
    (name : Name) (initializer : Expr) : Option (Lowered (List IrStmt)) := do
  let lowered ← lowerExpr ctx constUse scope none initializer
  match lowered.type, returnType with
  | .result inner, .result _ => do
      let tempName := generatedName "try" nextTemp
      let withTemp ← Scope.define scope tempName lowered.type false
      let cleanup ← emitFrames ctx constUse frames
      let temp : IrExpr := .local lowered.type tempName
      let defined ← Scope.define withTemp name inner false
      return {
        value := [
          .letStmt tempName false lowered.type lowered,
          .ifStmt (.unary .bool .not (.field .bool temp "ok"))
            (cleanup ++ [.returnStmt (some (.err returnType))]) none,
          .letStmt name false inner (.field inner temp "value")]
        scope := defined
        nextTemp := nextTemp + 1
        emissions := emissionsAt (Scope.push withTemp "") frames.flatten }
  | _, _ => none

def lowerReturnValue (returnType : TypeRef) (scope : Scope) :
    Option Expr → Option (Option IrExpr)
  | none => some none
  | some value => (lowerExpr ctx constUse scope (some returnType) value).map some

def lowerReturn (returnType : TypeRef) (frames : List DeferFrame) (scope : Scope)
    (nextTemp : Nat) (value : Option Expr) : Option (Lowered (List IrStmt)) := do
  let cleanup ← emitFrames ctx constUse frames
  let lowered ← lowerReturnValue ctx constUse returnType scope value
  return ⟨cleanup ++ [.returnStmt lowered], scope, nextTemp, emissionsAt scope frames.flatten⟩

def Scope.zoneName : Scope → Name
  | [] => ""
  | frame :: _ => frame.info

def Scope.pushBlock (parent : Scope) : Scope :=
  Scope.push parent (Scope.zoneName parent)

mutual

/-- `cn_ir_lower_statement`, on the statements `cn_ir_lower_block` leaves to it. -/
def lowerStatement (returnType : TypeRef) (frames : List DeferFrame) (scope : Scope)
    (nextTemp : Nat) : Stmt → Option (Lowered IrStmt)
  | .letStmt name isMutable sourceType initializer => do
      let type := ctx.canon sourceType
      let lowered ← lowerExpr ctx constUse scope (some type) initializer
      let defined ← Scope.define scope name type isMutable
      return ⟨.letStmt name isMutable type lowered, defined, nextTemp, []⟩
  | .assign target value => do
      let first ← lowerExpr ctx constUse scope none target
      let second ← lowerExpr ctx constUse scope (some first.type) value
      return ⟨.assign first second, scope, nextTemp, []⟩
  | .expr value => do
      let lowered ← lowerExpr ctx constUse scope none value
      return ⟨.expr lowered, scope, nextTemp, []⟩
  | .free value => do
      let lowered ← lowerExpr ctx constUse scope none value
      return ⟨.free lowered, scope, nextTemp, []⟩
  | .zone body => do
      let zoneName := generatedName "zone" nextTemp
      let zoneScope ← Scope.define (Scope.push scope zoneName) zoneName zonePointer false
      let lowered ← lowerStatements returnType ([.zoneRelease zoneName] :: frames)
        (Scope.pushBlock zoneScope) (nextTemp + 1) [] body
      return {
        value := .zone zoneName (lowered.value ++ [zoneReleaseStmt zoneName])
        scope := scope
        nextTemp := lowered.nextTemp
        emissions :=
          lowered.emissions ++ emissionsAt lowered.scope [.zoneRelease zoneName] }
  | .ifStmt condition thenBlock elseBlock => do
      let test ← lowerExpr ctx constUse scope (some .bool) condition
      let first ← lowerStatements returnType frames (Scope.pushBlock scope) nextTemp [] thenBlock
      let second ← lowerElse returnType frames scope first.nextTemp elseBlock
      return ⟨.ifStmt test first.value second.value, scope, second.nextTemp,
        first.emissions ++ second.emissions⟩
  | .whileStmt condition body => do
      let test ← lowerExpr ctx constUse scope (some .bool) condition
      let lowered ← lowerStatements returnType frames (Scope.pushBlock scope) nextTemp [] body
      return ⟨.whileStmt test lowered.value, scope, lowered.nextTemp, lowered.emissions⟩
  | .loop body => do
      let lowered ← lowerStatements returnType frames (Scope.pushBlock scope) nextTemp [] body
      return ⟨.loop lowered.value, scope, lowered.nextTemp, lowered.emissions⟩
  | .forStmt name sourceType start stop body => do
      let type := ctx.canon sourceType
      let first ← lowerExpr ctx constUse scope (some .int) start
      let last ← lowerExpr ctx constUse scope (some .int) stop
      let loopScope ← Scope.define (Scope.push scope "") name type false
      let lowered ← lowerStatements returnType frames (Scope.pushBlock loopScope) nextTemp [] body
      return ⟨.forStmt name type first last lowered.value, scope, lowered.nextTemp,
        lowered.emissions⟩
  | .returnStmt _ | .defer _ | .tryStmt _ _ => none

def lowerElse (returnType : TypeRef) (frames : List DeferFrame) (scope : Scope)
    (nextTemp : Nat) : Option (List Stmt) → Option (Lowered (Option IrBlock))
  | none => some ⟨none, scope, nextTemp, []⟩
  | some block => do
      let lowered ← lowerStatements returnType frames (Scope.pushBlock scope) nextTemp [] block
      return ⟨some lowered.value, scope, lowered.nextTemp, lowered.emissions⟩

/-- The statement loop of `cn_ir_lower_block`; `entries` is the block's own defer
frame and `outer` the frames above it. -/
def lowerStatements (returnType : TypeRef) (outer : List DeferFrame) (scope : Scope)
    (nextTemp : Nat) (entries : DeferFrame) : List Stmt → Option (Lowered (List IrStmt))
  | [] => do
      let cleanup ← emitEntries ctx constUse entries
      return ⟨cleanup, scope, nextTemp, emissionsAt scope entries⟩
  | .defer statement :: rest =>
      lowerStatements returnType outer scope nextTemp (.statement statement scope :: entries) rest
  | .tryStmt name initializer :: rest => do
      let first ← lowerTry ctx constUse returnType (entries :: outer) scope nextTemp name
        initializer
      let remaining ← lowerStatements returnType outer first.scope first.nextTemp entries rest
      return ⟨first.value ++ remaining.value, remaining.scope, remaining.nextTemp,
        first.emissions ++ remaining.emissions⟩
  | .returnStmt value :: _ =>
      lowerReturn ctx constUse returnType (entries :: outer) scope nextTemp value
  | statement :: rest => do
      let first ← lowerStatement returnType (entries :: outer) scope nextTemp statement
      let remaining ← lowerStatements returnType outer first.scope first.nextTemp entries rest
      return ⟨first.value :: remaining.value, remaining.scope, remaining.nextTemp,
        first.emissions ++ remaining.emissions⟩

end

/-- A statement that `cn_ir_lower_block` leaves to `cn_ir_lower_statement`. -/
def isPlain : Stmt → Bool
  | .defer _ | .tryStmt _ _ | .returnStmt _ => false
  | _ => true

theorem lowerStatements_plain {returnType : TypeRef} {outer : List DeferFrame} {scope : Scope}
    {nextTemp : Nat} {entries : DeferFrame} {statement : Stmt} (hplain : isPlain statement = true)
    (rest : List Stmt) :
    lowerStatements ctx constUse returnType outer scope nextTemp entries (statement :: rest) = do
      let first ← lowerStatement ctx constUse returnType (entries :: outer) scope nextTemp
        statement
      let remaining ← lowerStatements ctx constUse returnType outer first.scope first.nextTemp
        entries rest
      return ⟨first.value :: remaining.value, remaining.scope, remaining.nextTemp,
        first.emissions ++ remaining.emissions⟩ := by
  cases statement with
  | defer _ | tryStmt _ _ | returnStmt _ => simp [isPlain] at hplain
  | _ => rw [lowerStatements] <;> simp

end

end Lower

end Cnegative
