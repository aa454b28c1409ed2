import Cnegative.Library.Segment

namespace Library

/-! Labels that no jump goes to, and the code that control cannot reach because of
them. -/

open Instruction

variable {ι : Type} [Instruction ι]

namespace Code

/-- Whether control can get behind the code when it may enter at the top. -/
def liveAfter (dead : Nat → Bool) : Bool → Code ι → Bool
  | live, [] => live
  | _, .label id :: rest => liveAfter dead (!dead id) rest
  | live, .inst instruction :: rest => liveAfter dead (live && !isTerminator instruction) rest

def Avoids (dead : Nat → Bool) : Bool → Code ι → Prop
  | _, [] => True
  | _, .label id :: rest => Avoids dead (!dead id) rest
  | live, .inst instruction :: rest =>
      (live = true → ∀ target ∈ Instruction.targets instruction, dead target = false) ∧
        Avoids dead (live && !isTerminator instruction) rest

variable {dead : Nat → Bool} {live : Bool} {first second code : Code ι}

@[simp] theorem liveAfter_append :
    liveAfter dead live (first ++ second) = liveAfter dead (liveAfter dead live first) second := by
  induction first generalizing live with
  | nil => rfl
  | cons line rest ih =>
      cases line with
      | label id => exact ih
      | inst instruction => exact ih

@[simp] theorem avoids_append :
    Avoids dead live (first ++ second) ↔
      Avoids dead live first ∧ Avoids dead (liveAfter dead live first) second := by
  induction first generalizing live with
  | nil => simp [Avoids, liveAfter]
  | cons line rest ih =>
      cases line with
      | label id => exact ih
      | inst instruction => simp only [List.cons_append, Avoids, liveAfter, ih, and_assoc]

theorem avoids_of_targets (htargets : ∀ target ∈ code.targets, dead target = false) :
    Avoids dead live code := by
  induction code generalizing live with
  | nil => trivial
  | cons line rest ih =>
      have hrest : ∀ target ∈ targets rest, dead target = false :=
        fun target htarget => htargets target (by simp [htarget])
      cases line with
      | label id => exact ih hrest
      | inst instruction =>
          exact ⟨fun _ target htarget => htargets target (by simp [htarget]), ih hrest⟩

/-- Behind a terminator nothing is live as long as every label is dead. -/
theorem dead_of_labels (dead : Nat → Bool) (code : Code ι)
    (hlabels : ∀ label ∈ code.labels, dead label = true) :
    liveAfter dead false code = false ∧ Avoids dead false code := by
  induction code with
  | nil => exact ⟨rfl, trivial⟩
  | cons line rest ih =>
      have hrest := ih fun label hlabel => hlabels label (by simp [hlabel])
      cases line with
      | label id =>
          have hid : dead id = true := hlabels id (by simp)
          simpa [liveAfter, Avoids, hid] using hrest
      | inst instruction => simpa [liveAfter, Avoids] using hrest

omit [Instruction ι] in
theorem eq_of_findLabel {target : Nat} {behind : Code ι}
    (hfind : findLabel code target = some behind) :
    ∃ before, code = before ++ .label target :: behind := by
  induction code with
  | nil => simp [findLabel] at hfind
  | cons line rest ih =>
      cases line with
      | label id =>
          rw [findLabel] at hfind
          split at hfind
          · rename_i heq
            simp only [Option.some.injEq] at hfind
            exact ⟨[], by rw [heq, hfind]; rfl⟩
          · obtain ⟨before, rfl⟩ := ih hfind
            exact ⟨.label id :: before, rfl⟩
      | inst instruction =>
          obtain ⟨before, rfl⟩ := ih hfind
          exact ⟨.inst instruction :: before, rfl⟩

theorem Path.front_live (havoids : Avoids dead true code) {defined : List Nat} {position : Code ι}
    (hpath : Path code defined position) :
    ∃ before, code = before ++ position ∧ liveAfter dead true before = true := by
  induction hpath with
  | entry => exact ⟨[], rfl, rfl⟩
  | @next defined instruction rest hpath hopen ih =>
      obtain ⟨before, hcode, hlive⟩ := ih
      refine ⟨before ++ [.inst instruction], by rw [hcode]; simp, ?_⟩
      simp [liveAfter, hlive, hopen]
  | @jump defined instruction rest behind target hpath htarget hfind ih =>
      obtain ⟨before, hcode, hlive⟩ := ih
      obtain ⟨front, hfront⟩ := eq_of_findLabel hfind
      have hparts := havoids
      rw [hcode, avoids_append, hlive] at hparts
      have htargetLive := hparts.2.1 rfl target htarget
      refine ⟨front ++ [.label target], by rw [hfront]; simp, ?_⟩
      simp [liveAfter, htargetLive]

/-- A position that only instructions without a jump separate from the end of a path
is on the path too. -/
theorem Path.straight {defined : List Nat} {instructions : List ι} {rest : Code ι}
    (hopen : ∀ instruction ∈ instructions, isTerminator instruction = false)
    (hpath : Path code defined (instructions.map .inst ++ rest)) :
    ∃ defined', Path code defined' rest := by
  induction instructions generalizing defined with
  | nil => exact ⟨defined, hpath⟩
  | cons instruction others ih =>
      exact ih (fun other hother => hopen other (List.mem_cons_of_mem _ hother))
        (hpath.next (hopen instruction (by simp)))

/-- What stands behind dead code is on no path, nor is a straight line that ends there. -/
theorem Path.not_behind (havoids : Avoids dead true code)
    (hdead : liveAfter dead true code = false) {last : ι} {instructions : List ι}
    (hopen : ∀ instruction ∈ instructions, isTerminator instruction = false)
    {defined : List Nat} :
    ¬ Path (code ++ [.inst last]) defined (instructions.map .inst ++ [.inst last]) := by
  intro hpath
  obtain ⟨defined', hend⟩ := hpath.straight hopen
  have hwhole : Avoids dead true (code ++ [.inst last]) := by
    rw [avoids_append, hdead]
    exact ⟨havoids, by simp, trivial⟩
  obtain ⟨before, hcode, hlive⟩ := hend.front_live hwhole
  rw [← List.append_cancel_right hcode, hdead] at hlive
  simp at hlive

end Code

/-- The code of a piece that takes its labels from the counter: some of them are dead,
and control does not get behind it. -/
def Closes (labels labels' : Nat) (code : Code ι) : Prop :=
  ∃ dead : Nat → Bool, ∀ dead' : Nat → Bool,
    (∀ label, labels ≤ label → label < labels' → dead' label = dead label) →
      ∀ live, Code.Avoids dead' live code ∧ Code.liveAfter dead' live code = false

theorem Segment.avoids {registers labels registers' labels' : Nat} {before after : Flow}
    {code : Code ι} (hsegment : Segment registers labels before code registers' labels' after)
    {dead : Nat → Bool} (hdead : ∀ label, labels ≤ label → label < labels' → dead label = false)
    {live : Bool} : Code.Avoids dead live code := by
  refine Code.avoids_of_targets fun target htarget => ?_
  have hbounds := hsegment.fresh_labels.bounds target (hsegment.targets_inside target htarget)
  exact hdead target hbounds.1 hbounds.2

namespace Closes

variable {registers labels registers₁ labels₁ labels₂ labels₃ : Nat} {before after : Flow}
  {first second : Code ι}

theorem terminator {last : ι} (hsegment : Segment registers labels before first registers₁ labels₁
      after) (hlast : isTerminator last = true) (htargets : Instruction.targets last = []) :
    Closes labels labels₁ (first ++ [.inst last]) := by
  refine ⟨fun _ => false, fun dead hdead live => ?_⟩
  simp [hsegment.avoids hdead, Code.Avoids, Code.liveAfter, hlast, htargets]

/-- A piece in front that falls through. -/
theorem behind (hsegment : Segment registers labels before first registers₁ labels₁ after)
    (hsecond : Closes labels₁ labels₂ second) (hle : labels₁ ≤ labels₂) :
    Closes labels labels₂ (first ++ second) := by
  obtain ⟨dead, hcloses⟩ := hsecond
  have hfirstLe := hsegment.labels_le
  refine ⟨fun label => if label < labels₁ then false else dead label, fun dead' hagrees live => ?_⟩
  dsimp only at hagrees
  have hfront : ∀ label, labels ≤ label → label < labels₁ → dead' label = false := by
    intro label hlow hhigh
    rw [hagrees label hlow (by omega), if_pos hhigh]
  have hrear : ∀ label, labels₁ ≤ label → label < labels₂ → dead' label = dead label := by
    intro label hlow hhigh
    rw [hagrees label (by omega) hhigh, if_neg (by omega)]
  obtain ⟨havoids, hdead⟩ := hcloses dead' hrear (Code.liveAfter dead' live first)
  simp [hsegment.avoids hfront, havoids, hdead]

/-- Code behind a piece that control does not get through. -/
theorem followed (hfirst : Closes labels labels₁ first)
    (hlabels : ∀ label ∈ second.labels, labels₁ ≤ label ∧ label < labels₂)
    (hle : labels ≤ labels₁) (hle' : labels₁ ≤ labels₂) :
    Closes labels labels₂ (first ++ second) := by
  obtain ⟨dead, hcloses⟩ := hfirst
  refine ⟨fun label => if label < labels₁ then dead label else true, fun dead' hagrees live => ?_⟩
  dsimp only at hagrees
  have hfront : ∀ label, labels ≤ label → label < labels₁ → dead' label = dead label := by
    intro label hlow hhigh
    rw [hagrees label hlow (by omega), if_pos hhigh]
  have hrear : ∀ label ∈ second.labels, dead' label = true := by
    intro label hlabel
    have hbounds := hlabels label hlabel
    rw [hagrees label (by omega) hbounds.2, if_neg (by omega)]
  obtain ⟨havoids, hdead⟩ := hcloses dead' hfront live
  obtain ⟨hdead', havoids'⟩ := Code.dead_of_labels _ _ hrear
  simp [havoids, hdead, havoids', hdead']

/-- Both branches close, so nothing reaches the label where they would meet. -/
theorem diamond {test thenCode thenJump elseCode elseJump : Code ι} {branch : ι}
    (htest : Segment registers (labels + 3) before test registers₁ labels₁ after)
    (htargets : ∀ target ∈ Instruction.targets branch, target = labels ∨ target = labels + 1)
    (hthen : Closes labels₁ labels₂ thenCode) (hthenLe : labels₁ ≤ labels₂)
    (hthenJump : thenJump.labels = []) (helse : Closes labels₂ labels₃ elseCode)
    (helseLe : labels₂ ≤ labels₃) (helseJump : elseJump.labels = []) :
    Closes labels labels₃
      (test ++ [.inst branch, .label labels] ++ thenCode ++ thenJump ++
        ([.label (labels + 1)] ++ elseCode ++ elseJump) ++ [.label (labels + 2)]) := by
  obtain ⟨thenDead, hthenCloses⟩ := hthen
  obtain ⟨elseDead, helseCloses⟩ := helse
  have htestLe := htest.labels_le
  refine ⟨fun label => if label < labels + 3 then decide (label = labels + 2)
    else if label < labels₁ then false
    else if label < labels₂ then thenDead label else elseDead label, fun dead hagrees live => ?_⟩
  dsimp only at hagrees
  have hown : ∀ label, labels ≤ label → label < labels + 3 →
      dead label = decide (label = labels + 2) := by
    intro label hlow hhigh
    rw [hagrees label hlow (by omega), if_pos hhigh]
  have htestDead : ∀ label, labels + 3 ≤ label → label < labels₁ → dead label = false := by
    intro label hlow hhigh
    rw [hagrees label (by omega) (by omega), if_neg (by omega), if_pos hhigh]
  have hthenDead : ∀ label, labels₁ ≤ label → label < labels₂ → dead label = thenDead label := by
    intro label hlow hhigh
    rw [hagrees label (by omega) (by omega), if_neg (by omega), if_neg (by omega), if_pos hhigh]
  have helseDead : ∀ label, labels₂ ≤ label → label < labels₃ → dead label = elseDead label := by
    intro label hlow hhigh
    rw [hagrees label (by omega) hhigh, if_neg (by omega), if_neg (by omega), if_neg (by omega)]
  have hfirst : dead labels = false := by
    simp [hown labels (by omega) (by omega)]
  have hsecond : dead (labels + 1) = false := by
    simp [hown (labels + 1) (by omega) (by omega)]
  have hmerge : dead (labels + 2) = true := by
    simp [hown (labels + 2) (by omega) (by omega)]
  have hbranchTargets : ∀ target ∈ Instruction.targets branch, dead target = false := by
    intro target htarget
    rcases htargets target htarget with rfl | rfl
    · exact hfirst
    · exact hsecond
  obtain ⟨hthenAvoids, hthenEnd⟩ := hthenCloses dead hthenDead true
  obtain ⟨helseAvoids, helseEnd⟩ := helseCloses dead helseDead true
  obtain ⟨hthenJumpEnd, hthenJumpAvoids⟩ :=
    Code.dead_of_labels dead thenJump (by simp [hthenJump])
  obtain ⟨-, helseJumpAvoids⟩ :=
    Code.dead_of_labels dead elseJump (by simp [helseJump])
  simp only [Code.avoids_append, Code.liveAfter_append, Code.Avoids, Code.liveAfter, hfirst,
    hsecond, hmerge, Bool.not_false, Bool.not_true, hthenAvoids, hthenEnd, hthenJumpEnd,
    hthenJumpAvoids, helseAvoids, helseEnd, helseJumpAvoids, and_true]
  exact ⟨htest.avoids htestDead, fun _ => hbranchTargets⟩

/-- Only its own back edge reaches an endless loop, and nothing its end. -/
theorem endlessLoop {jump : ι} {body back : Code ι}
    (hjump : Instruction.targets jump = [labels])
    (hbody : Segment registers (labels + 2) before body registers₁ labels₁ after)
    (hback : ∀ target ∈ back.targets, target = labels) :
    Closes labels labels₁
      ([.inst jump, .label labels] ++ body ++ back ++ [.label (labels + 1)]) := by
  have hbodyLe := hbody.labels_le
  refine ⟨fun label => decide (label = labels + 1), fun dead hagrees live => ?_⟩
  dsimp only at hagrees
  have hhead : dead labels = false := by
    simp [hagrees labels (by omega) (by omega)]
  have hend : dead (labels + 1) = true := by
    simp [hagrees (labels + 1) (by omega) (by omega)]
  have hinside : ∀ label, labels + 2 ≤ label → label < labels₁ → dead label = false := by
    intro label hlow hhigh
    rw [hagrees label (by omega) hhigh]
    exact decide_eq_false (by omega)
  have hbackAvoids : ∀ live, Code.Avoids dead live back := fun live =>
    Code.avoids_of_targets fun target htarget => by rw [hback target htarget, hhead]
  simp [Code.Avoids, Code.liveAfter, hjump, hhead, hend, hbody.avoids hinside, hbackAvoids]

end Closes

end Library
