import Cnegative.Cleanup.Sites
import Cnegative.Library.Paths

namespace Cnegative

namespace Cleanup

open Library (Exit Paths)
open Library.Paths (Seq Rounds skip step)
open Lower (isPlain)

/-! Paths through a body, before and after lowering.  A condition may come out either way, and
any loop may end between two rounds, so that a run that goes on for ever or faults is the
beginning of a path.  Zones are numbered as control enters them. -/

/-! The IR.  An event is a statement that runs, with the zone that it releases. -/

inductive Event where
  | entered (zone : Nat)
  | ran (statement : IrStmt) (released : Option Nat)

/-- The names in scope, the newest first, and the zones whose handles they hold. -/
abbrev ZoneEnv := List (Name × Option Nat)

/-- What the argument of `__zone_release` is bound to. -/
def releasedZone (env : ZoneEnv) : IrStmt → Option Nat
  | .expr (.call _ .builtin moduleName functionName [.local _ name]) =>
      if moduleName = "" ∧ functionName = "__zone_release" then (env.lookup name).join else none
  | _ => none

def envAfter (env : ZoneEnv) : IrStmt → ZoneEnv
  | .letStmt name _ _ _ => (name, none) :: env
  | _ => env

def blockEnvAfter (env : ZoneEnv) (block : IrBlock) : ZoneEnv :=
  block.foldl envAfter env

mutual

def stmtPaths (env : ZoneEnv) : IrStmt → Paths Nat Event
  | .returnStmt _ => fun before events exit after =>
      events = [] ∧ exit = .returned ∧ after = before
  | .zone zoneName body => fun before events exit after =>
      ∃ inner, events = .entered before :: inner ∧
        blockPaths ((zoneName, some before) :: env) body (before + 1) inner exit after
  | .ifStmt _ thenBlock elseBlock => fun before events exit after =>
      blockPaths env thenBlock before events exit after ∨
        elsePaths env elseBlock before events exit after
  | .whileStmt _ body | .loop body => Rounds (blockPaths env body)
  | .forStmt name _ _ _ body => Rounds (blockPaths ((name, none) :: env) body)
  | statement => step (.ran statement (releasedZone env statement))

def elsePaths (env : ZoneEnv) : Option (List IrStmt) → Paths Nat Event
  | none => skip
  | some block => blockPaths env block

def blockPaths (env : ZoneEnv) : List IrStmt → Paths Nat Event
  | [] => skip
  | statement :: rest => Seq (stmtPaths env statement) (blockPaths (envAfter env statement) rest)

end

/-! The source.  A block that control leaves runs what it deferred, the newest first, and a
zone is released behind its body. -/

/-- What a scope owes when control leaves it. -/
inductive Due where
  | deferred (statement : Deferred)
  | zone (number : Nat)

inductive Act where
  | ran (statement : Stmt)
  | bound (name : Name)
  | registered (statement : Deferred)
  | entered (zone : Nat)
  | cleaned (due : Due)

def closing (dues : List Due) : List Act :=
  dues.map .cleaned

def onReturn (dues : List Due) : Exit → List Act
  | .next => []
  | .returned => closing dues

/-- A statement of a block with deferred statements of its own. -/
def leaving (own : List Due) (paths : Paths Nat Act) : Paths Nat Act :=
  fun before acts exit after =>
    ∃ inner, paths before inner exit after ∧ acts = inner ++ onReturn own exit

mutual

def sourceStmt : Stmt → Paths Nat Act
  | .zone body => fun before acts exit after =>
      ∃ inner, acts = .entered before :: (inner ++ [.cleaned (.zone before)]) ∧
        sourceBlock [] body (before + 1) inner exit after
  | .ifStmt _ thenBlock elseBlock => fun before acts exit after =>
      sourceBlock [] thenBlock before acts exit after ∨
        sourceElse elseBlock before acts exit after
  | .whileStmt _ body | .loop body | .forStmt _ _ _ _ body => Rounds (sourceBlock [] body)
  | statement => step (.ran statement)

def sourceElse : Option (List Stmt) → Paths Nat Act
  | none => skip
  | some block => sourceBlock [] block

/-- `own` are the deferred statements of the block so far, the newest first. -/
def sourceBlock (own : List Due) : List Stmt → Paths Nat Act
  | [] => fun before acts exit after => acts = closing own ∧ exit = .next ∧ after = before
  | .defer statement :: rest => fun before acts exit after =>
      ∃ inner, acts = .registered statement :: inner ∧
        sourceBlock (.deferred statement :: own) rest before inner exit after
  | .tryStmt name initializer :: rest => fun before acts exit after =>
      ∃ inner, acts = .ran (.tryStmt name initializer) :: inner ∧
        ((inner = closing own ∧ exit = .returned ∧ after = before) ∨
          ∃ more, inner = .bound name :: more ∧ sourceBlock own rest before more exit after)
  | .returnStmt _ :: _ => fun before acts exit after =>
      acts = closing own ∧ exit = .returned ∧ after = before
  | statement :: rest => Seq (leaving own (sourceStmt statement)) (sourceBlock own rest)

end

theorem sourceBlock_plain {own : List Due} {statement : Stmt} (hplain : isPlain statement = true)
    (rest : List Stmt) :
    sourceBlock own (statement :: rest) =
      Seq (leaving own (sourceStmt statement)) (sourceBlock own rest) := by
  cases statement with
  | defer _ | tryStmt _ _ | returnStmt _ => simp [isPlain] at hplain
  | _ => rfl

/-! Every due is cleaned once, the newest first. -/

/-- The dues before and after: what is registered or entered comes on top, and only what is
on top is cleaned. -/
inductive Balanced : List Due → List Act → List Due → Prop
  | nil {dues : List Due} : Balanced dues [] dues
  | ran {dues rest : List Due} {statement : Stmt} {acts : List Act} :
      Balanced dues acts rest → Balanced dues (.ran statement :: acts) rest
  | bound {dues rest : List Due} {name : Name} {acts : List Act} :
      Balanced dues acts rest → Balanced dues (.bound name :: acts) rest
  | registered {dues rest : List Due} {statement : Deferred} {acts : List Act} :
      Balanced (.deferred statement :: dues) acts rest →
        Balanced dues (.registered statement :: acts) rest
  | entered {dues rest : List Due} {zone : Nat} {acts : List Act} :
      Balanced (.zone zone :: dues) acts rest → Balanced dues (.entered zone :: acts) rest
  | cleaned {dues rest : List Due} {due : Due} {acts : List Act} :
      Balanced dues acts rest → Balanced (due :: dues) (.cleaned due :: acts) rest

theorem Balanced.append {dues middle rest : List Due} {acts more : List Act}
    (hfirst : Balanced dues acts middle) (hsecond : Balanced middle more rest) :
    Balanced dues (acts ++ more) rest := by
  induction hfirst with
  | nil => exact hsecond
  | ran _ ih => exact .ran (ih hsecond)
  | bound _ ih => exact .bound (ih hsecond)
  | registered _ ih => exact .registered (ih hsecond)
  | entered _ ih => exact .entered (ih hsecond)
  | cleaned _ ih => exact .cleaned (ih hsecond)

theorem balanced_closing (own dues : List Due) : Balanced (own ++ dues) (closing own) dues := by
  induction own with
  | nil => exact .nil
  | cons due own ih => exact .cleaned ih

/-- The paths clean what they register and enter, and nothing else. -/
def Balances (paths : Paths Nat Act) : Prop :=
  ∀ before acts exit after, paths before acts exit after → ∀ dues, Balanced dues acts dues

theorem Balances.rounds {body : Paths Nat Act} (hbody : Balances body) :
    Balances (Rounds body) := by
  intro before acts exit after hpath dues
  induction hpath with
  | stop => exact .nil
  | returned hreturned => exact hbody _ _ _ _ hreturned dues
  | round hearly _ ih => exact (hbody _ _ _ _ hearly dues).append ih

mutual

theorem sourceStmt_balances : ∀ statement : Stmt, Balances (sourceStmt statement)
  | .zone body => by
      rintro before acts exit after ⟨inner, rfl, hpath⟩ dues
      have hbody := sourceBlock_balanced body [] _ _ _ _ hpath (.zone before :: dues)
      exact .entered (hbody.append (.cleaned .nil))
  | .ifStmt _ thenBlock elseBlock => by
      rintro before acts exit after (hpath | hpath) dues
      · exact sourceBlock_balanced thenBlock [] _ _ _ _ hpath dues
      · exact sourceElse_balances elseBlock _ _ _ _ hpath dues
  | .whileStmt _ body | .loop body | .forStmt _ _ _ _ body =>
      Balances.rounds (sourceBlock_balanced body [])
  | .letStmt .. | .assign .. | .expr _ | .free _ | .returnStmt _ | .defer _ | .tryStmt .. => by
      rintro before acts exit after ⟨rfl, rfl, rfl⟩ dues
      exact .ran .nil

theorem sourceElse_balances : ∀ elseBlock : Option (List Stmt), Balances (sourceElse elseBlock)
  | none => by
      rintro before acts exit after ⟨rfl, rfl, rfl⟩ dues
      exact .nil
  | some block => sourceBlock_balanced block []

theorem sourceBlock_balanced : ∀ (block : List Stmt) (own : List Due) before acts exit after,
    sourceBlock own block before acts exit after → ∀ dues, Balanced (own ++ dues) acts dues
  | [], own => by
      rintro before acts exit after ⟨rfl, rfl, rfl⟩ dues
      exact balanced_closing own dues
  | statement :: rest, own => by
      cases hplain : isPlain statement with
      | true =>
          rw [sourceBlock_plain hplain]
          intro before acts exit after hpath dues
          cases hpath with
          | returned hreturned =>
              obtain ⟨inner, hinner, rfl⟩ := hreturned
              have hstatement := sourceStmt_balances statement _ _ _ _ hinner (own ++ dues)
              exact hstatement.append (balanced_closing own dues)
          | next hearly hlate =>
              obtain ⟨inner, hinner, rfl⟩ := hearly
              have hstatement := sourceStmt_balances statement _ _ _ _ hinner (own ++ dues)
              rw [onReturn, List.append_nil]
              exact hstatement.append (sourceBlock_balanced rest own _ _ _ _ hlate dues)
      | false =>
          cases statement with
          | defer statement =>
              rintro before acts exit after ⟨inner, rfl, hpath⟩ dues
              exact .registered (sourceBlock_balanced rest _ _ _ _ _ hpath dues)
          | tryStmt name initializer =>
              rintro before acts exit after ⟨inner, rfl, ⟨rfl, rfl, rfl⟩ | ⟨more, rfl, hpath⟩⟩ dues
              · exact .ran (balanced_closing own dues)
              · exact .ran (.bound (sourceBlock_balanced rest own _ _ _ _ hpath dues))
          | returnStmt value =>
              rintro before acts exit after ⟨rfl, rfl, rfl⟩ dues
              exact balanced_closing own dues
          | _ => simp [isPlain] at hplain

end

end Cleanup

end Cnegative
