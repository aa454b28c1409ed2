import Mathlib.Data.List.Nodup
import Mathlib.Data.Set.Basic

namespace Library

/-! Code as one list of lines: labels, and instructions that read and write
registers and end basic blocks. -/

inductive Line (ι : Type) where
  | label (id : Nat)
  | inst (instruction : ι)
  deriving DecidableEq, Repr

abbrev Code (ι : Type) := List (Line ι)

class Instruction (ι : Type) where
  uses : ι → List Nat
  defs : ι → List Nat
  targets : ι → List Nat
  isTerminator : ι → Bool

open Instruction

variable {ι : Type} [Instruction ι]

namespace Line

def labels : Line ι → List Nat
  | .label id => [id]
  | .inst _ => []

def defs : Line ι → List Nat
  | .label _ => []
  | .inst instruction => Instruction.defs instruction

def targets : Line ι → List Nat
  | .label _ => []
  | .inst instruction => Instruction.targets instruction

omit [Instruction ι] in
@[simp] theorem labels_label (id : Nat) : (Line.label id : Line ι).labels = [id] := rfl

omit [Instruction ι] in
@[simp] theorem labels_inst (instruction : ι) : (Line.inst instruction).labels = [] := rfl

@[simp] theorem defs_label (id : Nat) : (Line.label id : Line ι).defs = [] := rfl

@[simp] theorem defs_inst (instruction : ι) :
    (Line.inst instruction).defs = Instruction.defs instruction := rfl

@[simp] theorem targets_label (id : Nat) : (Line.label id : Line ι).targets = [] := rfl

@[simp] theorem targets_inst (instruction : ι) :
    (Line.inst instruction).targets = Instruction.targets instruction := rfl

end Line

namespace Code

def labels (code : Code ι) : List Nat := code.flatMap Line.labels

def defs (code : Code ι) : List Nat := code.flatMap Line.defs

def targets (code : Code ι) : List Nat := code.flatMap Line.targets

def findLabel (code : Code ι) (target : Nat) : Option (Code ι) :=
  match code with
  | [] => none
  | .label id :: rest => if id = target then some rest else findLabel rest target
  | .inst _ :: rest => findLabel rest target

/-- Every block ends in a terminator, with nothing between it and the next label;
`live` says whether a block is open. -/
def blocksClosed (live : Bool) : Code ι → Bool
  | [] => !live
  | .label _ :: rest => !live && blocksClosed true rest
  | .inst instruction :: rest => live && blocksClosed (!isTerminator instruction) rest

/-- A path from the entry to a position in the code, with the registers written on it. -/
inductive Path (code : Code ι) : List Nat → Code ι → Prop where
  | entry : Path code [] code
  | next {defined : List Nat} {instruction : ι} {rest : Code ι} :
      Path code defined (.inst instruction :: rest) → isTerminator instruction = false →
      Path code (Instruction.defs instruction ++ defined) rest
  | jump {defined : List Nat} {instruction : ι} {rest behind : Code ι} {target : Nat} :
      Path code defined (.inst instruction :: rest) →
      target ∈ Instruction.targets instruction → findLabel code target = some behind →
      Path code defined behind

structure WellFormed (code : Code ι) : Prop where
  labels_unique : code.labels.Nodup
  targets_defined : ∀ target ∈ code.targets, target ∈ code.labels
  blocks_closed : blocksClosed true code = true
  defs_unique : code.defs.Nodup
  uses_defined : ∀ {defined : List Nat} {instruction : ι} {rest : Code ι},
    Path code defined (.inst instruction :: rest) →
      ∀ register ∈ uses instruction, register ∈ defined

end Code

/-! A certificate of the last clause: what is written whenever control reaches a
label.  `none` is the state behind a terminator. -/

abbrev Flow := Option (Set Nat)

inductive Checked (atLabel : Nat → Set Nat) : Flow → Code ι → Flow → Prop where
  | nil {flow : Flow} : Checked atLabel flow [] flow
  | label {id : Nat} {rest : Code ι} {after : Flow} :
      Checked atLabel (some (atLabel id)) rest after →
      Checked atLabel none (.label id :: rest) after
  | inst {defined : Set Nat} {instruction : ι} {rest : Code ι} {after : Flow} :
      isTerminator instruction = false → (∀ register ∈ uses instruction, register ∈ defined) →
      Instruction.targets instruction = [] →
      Checked atLabel (some (defined ∪ {register | register ∈ Instruction.defs instruction}))
        rest after →
      Checked atLabel (some defined) (.inst instruction :: rest) after
  | terminator {defined : Set Nat} {instruction : ι} {rest : Code ι} {after : Flow} :
      isTerminator instruction = true → (∀ register ∈ uses instruction, register ∈ defined) →
      (∀ target ∈ Instruction.targets instruction, atLabel target ⊆ defined) →
      Checked atLabel none rest after →
      Checked atLabel (some defined) (.inst instruction :: rest) after

namespace Checked

variable {atLabel : Nat → Set Nat} {before middle after : Flow} {first second code : Code ι}

theorem append (hfirst : Checked atLabel before first middle)
    (hsecond : Checked atLabel middle second after) :
    Checked atLabel before (first ++ second) after := by
  induction hfirst with
  | nil => exact hsecond
  | label _ ih => exact .label (ih hsecond)
  | inst hopen huses htargets _ ih => exact .inst hopen huses htargets (ih hsecond)
  | terminator hclosed huses htargets _ ih => exact .terminator hclosed huses htargets (ih hsecond)

theorem blocksClosed (hchecked : Checked atLabel before code none) :
    Code.blocksClosed before.isSome code = true := by
  generalize hafter : (none : Flow) = after at hchecked
  induction hchecked with
  | nil => simp [← hafter, Code.blocksClosed]
  | label _ ih => simpa [Code.blocksClosed] using ih hafter
  | inst hopen _ _ _ ih => simpa [Code.blocksClosed, hopen] using ih hafter
  | terminator hclosed _ _ _ ih => simpa [Code.blocksClosed, hclosed] using ih hafter

theorem behind_label (hchecked : Checked atLabel before code after) {target : Nat}
    {behind : Code ι} (hfind : Code.findLabel code target = some behind) :
    Checked atLabel (some (atLabel target)) behind after := by
  induction hchecked with
  | nil => simp [Code.findLabel] at hfind
  | @label id rest after hrest ih =>
      rw [Code.findLabel] at hfind
      split at hfind
      · rename_i heq
        simp only [Option.some.injEq] at hfind
        exact heq ▸ hfind ▸ hrest
      · exact ih hfind
  | inst _ _ _ _ ih => exact ih hfind
  | terminator _ _ _ _ ih => exact ih hfind

theorem of_path (hchecked : Checked atLabel (some ∅) code none) {defined : List Nat}
    {position : Code ι} (hpath : Code.Path code defined position) :
    ∃ flow, (∀ certain, flow = some certain → ∀ register ∈ certain, register ∈ defined) ∧
      Checked atLabel flow position none := by
  induction hpath with
  | entry =>
      refine ⟨some ∅, ?_, hchecked⟩
      intro certain hcertain register hregister
      cases hcertain
      exact hregister.elim
  | next _ hopen ih =>
      obtain ⟨flow, hdefined, hcode⟩ := ih
      cases hcode with
      | inst _ _ _ hrest =>
          refine ⟨_, ?_, hrest⟩
          intro certain hcertain register hregister
          cases hcertain
          cases hregister with
          | inl hold => exact List.mem_append_right _ (hdefined _ rfl _ hold)
          | inr hnew => exact List.mem_append_left _ hnew
      | terminator hclosed _ _ _ =>
          rw [hopen] at hclosed
          cases hclosed
  | jump _ htarget hfind ih =>
      obtain ⟨flow, hdefined, hcode⟩ := ih
      refine ⟨_, ?_, hchecked.behind_label hfind⟩
      intro certain hcertain register hregister
      cases hcertain
      cases hcode with
      | inst _ _ hnone _ =>
          rw [hnone] at htarget
          cases htarget
      | terminator _ _ htargets _ =>
          exact hdefined _ rfl _ (htargets _ htarget hregister)

theorem uses_defined (hchecked : Checked atLabel (some ∅) code none) {defined : List Nat}
    {instruction : ι} {rest : Code ι}
    (hpath : Code.Path code defined (.inst instruction :: rest)) :
    ∀ register ∈ uses instruction, register ∈ defined := by
  intro register hregister
  obtain ⟨flow, hdefined, hcode⟩ := hchecked.of_path hpath
  cases hcode with
  | inst _ huses _ _ => exact hdefined _ rfl _ (huses _ hregister)
  | terminator _ huses _ _ => exact hdefined _ rfl _ (huses _ hregister)

end Checked

end Library
