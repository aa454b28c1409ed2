import Cnegative.Library.Chain
import Cnegative.Syntax.Ast

namespace Cnegative

/-- Error codes of `typecheck.c`; every one of them is an error, so a run is
accepted when it reports none. -/
inductive DiagCode where
  | E3001 | E3002 | E3003 | E3004 | E3005 | E3006 | E3007 | E3008 | E3009
  | E3010 | E3011 | E3012 | E3013 | E3014 | E3015 | E3016 | E3019
  | E3020 | E3023 | E3024 | E3025 | E3026 | E3027 | E3028 | E3029
  | E3030 | E3031 | E3032 | E3033 | E3034 | E3035 | E3036 | E3037 | E3038
  | E3041 | E3042 | E3043 | E3044 | E3045
  deriving DecidableEq, Repr

namespace Check

open Library (Ref Frame Chain)

abbrev BindingRef := Ref Name

/-- `cn_result_proof`; a child of `and` and `or` is absent where the source
holds `NULL`. -/
inductive ResultProof where
  | leaf (binding : BindingRef) (positive : Bool)
  | not (inner : ResultProof)
  | and (left right : Option ResultProof)
  | or (left right : Option ResultProof)
  deriving Repr

structure Binding where
  type : TypeRef
  isMutable : Bool
  scopeZoneDepth : Nat
  valueZoneDepth : Nat
  resultGuardProof : Option ResultProof
  deriving Repr

/-- What a `cn_scope` holds beside its bindings. -/
structure ScopeInfo where
  resultGuards : List BindingRef
  zoneDepth : Nat
  deriving Repr

abbrev Scope := Chain Name Binding ScopeInfo

def Scope.zoneDepth (scope : Scope) : Nat :=
  match scope with
  | [] => 0
  | frame :: _ => frame.info.zoneDepth

/-- An empty scope below `parent`. -/
def Scope.push (parent : Scope) (zoneDepth : Nat) : Scope :=
  ⟨[], ⟨[], zoneDepth⟩⟩ :: parent

def Scope.resultIsOk (scope : Scope) (binding : BindingRef) : Bool :=
  scope.any fun frame => frame.info.resultGuards.contains binding

/-- `cn_scope_mark_result_ok`: records the guard in the innermost scope. -/
def Scope.markResultOk (scope : Scope) (binding : BindingRef) : Scope :=
  match scope with
  | [] => []
  | frame :: outer =>
      if frame.info.resultGuards.contains binding then frame :: outer
      else
        { frame with
          info := { frame.info with
            resultGuards := binding :: frame.info.resultGuards } } :: outer

def ResultProof.dependsOn (binding : BindingRef) : ResultProof → Bool
  | .leaf guarded _ => guarded = binding
  | .not inner => inner.dependsOn binding
  | .and left right | .or left right =>
      (match left with
        | none => false
        | some proof => proof.dependsOn binding) ||
      (match right with
        | none => false
        | some proof => proof.dependsOn binding)

def Binding.invalidate (binding : BindingRef) (candidate : Binding) : Binding :=
  match candidate.resultGuardProof with
  | none => candidate
  | some proof =>
      if proof.dependsOn binding then { candidate with resultGuardProof := none }
      else candidate

/-- `cn_scope_invalidate_result_proofs`: drops every guard on the binding and
every alias proof that mentions it, in all enclosing scopes. -/
def Scope.invalidateResultProofs (scope : Scope) (binding : BindingRef) : Scope :=
  scope.map fun frame =>
    { bindings := frame.bindings.map fun entry => (entry.1, entry.2.invalidate binding)
      info := { frame.info with
        resultGuards := frame.info.resultGuards.filter (fun guard => guard ≠ binding) } }

def Scope.define (scope : Scope) (name : Name) (type : TypeRef) (isMutable : Bool)
    (valueZoneDepth : Nat) : Scope × List DiagCode :=
  match scope with
  | [] => ([], [])
  | frame :: outer =>
      if (frame.find? name).isSome then (frame :: outer, [.E3003])
      else
        (frame.define name
          { type
            isMutable
            scopeZoneDepth := frame.info.zoneDepth
            valueZoneDepth
            resultGuardProof := none } :: outer, [])

/-- `cn_build_result_proof`; `depth` counts down from the source's limit of 32. -/
def buildResultProof (scope : Scope) : Nat → Expr → Option ResultProof
  | 0, _ => none
  | depth + 1, .unary .not operand =>
      (buildResultProof scope depth operand).map .not
  | depth + 1, .binary op left right =>
      match op with
      | .equal | .notEqual =>
          let negated (literal : Bool) (proof : ResultProof) : ResultProof :=
            let proof := if literal then proof else .not proof
            if op = .notEqual then .not proof else proof
          match right, buildResultProof scope depth left with
          | .bool literal, some proof => some (negated literal proof)
          | _, _ =>
              match left, buildResultProof scope depth right with
              | .bool literal, some proof => some (negated literal proof)
              | _, _ => none
      | .and =>
          match buildResultProof scope depth left, buildResultProof scope depth right with
          | none, none => none
          | leftProof, rightProof => some (.and leftProof rightProof)
      | .or =>
          match buildResultProof scope depth left, buildResultProof scope depth right with
          | none, none => none
          | leftProof, rightProof => some (.or leftProof rightProof)
      | _ => none
  | _ + 1, .name name =>
      (scope.find? name).bind fun found => found.2.resultGuardProof
  | _ + 1, .field (.name base) "ok" =>
      (scope.find? base).bind fun found =>
        match found.2.type with
        | .result _ => some (.leaf found.1 true)
        | _ => none
  | _ + 1, _ => none

/-- The bindings that `cn_mark_result_ok_proof_for_branch` marks, in its order. -/
def ResultProof.provenOk : ResultProof → Bool → List BindingRef
  | .leaf binding positive, branchTruth => if branchTruth = positive then [binding] else []
  | .not inner, branchTruth => inner.provenOk (!branchTruth)
  | .and left right, branchTruth =>
      if branchTruth then
        (match left with
          | none => []
          | some proof => proof.provenOk true) ++
        (match right with
          | none => []
          | some proof => proof.provenOk true)
      else []
  | .or left right, branchTruth =>
      if branchTruth then []
      else
        (match left with
          | none => []
          | some proof => proof.provenOk false) ++
        (match right with
          | none => []
          | some proof => proof.provenOk false)

/-- `cn_mark_result_ok_proofs_for_branch` with the target scope as the analysis
scope or a fresh child of it. -/
def Scope.markBranch (target analysis : Scope) (condition : Expr) (branchTruth : Bool) : Scope :=
  match buildResultProof analysis 32 condition with
  | none => target
  | some proof => (proof.provenOk branchTruth).foldl Scope.markResultOk target

/-- The scope in which a branch guarded by `condition` is checked. -/
def Scope.guarded (parent : Scope) (condition : Expr) (branchTruth : Bool) : Scope :=
  (parent.push parent.zoneDepth).markBranch parent condition branchTruth

/-- Stores `value_zone_depth` or the alias proof of one binding. -/
def Scope.updateBinding (scope : Scope) (name : Name) (change : Binding → Binding) : Scope :=
  match scope.find? name with
  | none => scope
  | some (ref, _) => scope.update ref change

end Check

end Cnegative
