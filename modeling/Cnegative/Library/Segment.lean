import Mathlib.Data.Set.Insert
import Cnegative.Library.Blocks

namespace Library

/-! Pieces of labelled code entered at the top and left at the bottom, with the
registers and labels they take from two counters. -/

open Instruction

/-- Distinct numbers from `low` on, below `high`. -/
structure Fresh (low high : Nat) (numbers : List Nat) : Prop where
  nodup : numbers.Nodup
  bounds : ∀ number ∈ numbers, low ≤ number ∧ number < high

namespace Fresh

variable {low middle high : Nat} {first second numbers : List Nat}

theorem nil : Fresh low high [] :=
  ⟨List.nodup_nil, by simp⟩

theorem single : Fresh low (low + 1) [low] :=
  ⟨by simp, by simp⟩

theorem append (hfirst : Fresh low middle first) (hsecond : Fresh middle high second)
    (hlow : low ≤ middle) (hhigh : middle ≤ high) : Fresh low high (first ++ second) := by
  refine ⟨?_, ?_⟩
  · refine List.nodup_append.mpr ⟨hfirst.nodup, hsecond.nodup, ?_⟩
    intro left hleft right hright
    have hbelow := hfirst.bounds left hleft
    have habove := hsecond.bounds right hright
    omega
  · intro number hnumber
    cases List.mem_append.mp hnumber with
    | inl hleft =>
        have hbounds := hfirst.bounds number hleft
        omega
    | inr hright =>
        have hbounds := hsecond.bounds number hright
        omega

theorem perm (hfresh : Fresh low high first) (hperm : first.Perm second) :
    Fresh low high second :=
  ⟨hperm.nodup_iff.mp hfresh.nodup, fun number hnumber =>
    hfresh.bounds number (hperm.mem_iff.mpr hnumber)⟩

end Fresh

variable {ι : Type} [Instruction ι]

namespace Code

omit [Instruction ι] in
@[simp] theorem labels_nil : labels ([] : Code ι) = [] := rfl

omit [Instruction ι] in
@[simp] theorem labels_cons (line : Line ι) (code : Code ι) :
    labels (line :: code) = line.labels ++ labels code := rfl

omit [Instruction ι] in
@[simp] theorem labels_append (first second : Code ι) :
    labels (first ++ second) = labels first ++ labels second := List.flatMap_append

@[simp] theorem defs_nil : defs ([] : Code ι) = [] := rfl

@[simp] theorem defs_cons (line : Line ι) (code : Code ι) :
    defs (line :: code) = line.defs ++ defs code := rfl

@[simp] theorem defs_append (first second : Code ι) :
    defs (first ++ second) = defs first ++ defs second := List.flatMap_append

@[simp] theorem targets_nil : targets ([] : Code ι) = [] := rfl

@[simp] theorem targets_cons (line : Line ι) (code : Code ι) :
    targets (line :: code) = line.targets ++ targets code := rfl

@[simp] theorem targets_append (first second : Code ι) :
    targets (first ++ second) = targets first ++ targets second := List.flatMap_append

end Code

/-- `registers` and `labels` are the counters before and after the piece. -/
structure Segment (registers labels : Nat) (before : Flow) (code : Code ι)
    (registers' labels' : Nat) (after : Flow) : Prop where
  registers_le : registers ≤ registers'
  labels_le : labels ≤ labels'
  fresh_defs : Fresh registers registers' code.defs
  fresh_labels : Fresh labels labels' code.labels
  targets_inside : ∀ target ∈ code.targets, target ∈ code.labels
  checked : ∃ certificate : Nat → Set Nat, ∀ atLabel : Nat → Set Nat,
    (∀ label, labels ≤ label → label < labels' → atLabel label = certificate label) →
      Checked atLabel before code after

structure IsJump (instruction : ι) (target : Nat) : Prop where
  isTerminator : isTerminator instruction = true
  uses : uses instruction = []
  defs : Instruction.defs instruction = []
  targets : Instruction.targets instruction = [target]

/-- A conditional branch on values in the registers `defined`. -/
structure IsBranch (instruction : ι) (defined : Set Nat) (first second : Nat) : Prop where
  isTerminator : isTerminator instruction = true
  uses : ∀ register ∈ uses instruction, register ∈ defined
  defs : Instruction.defs instruction = []
  targets : ∀ target ∈ Instruction.targets instruction, target = first ∨ target = second

/-- How a block goes on to `target`: with a jump, unless it ended before. -/
inductive Leaves (target : Nat) (certain : Set Nat) : Flow → Code ι → Prop where
  | ended : Leaves target certain none []
  | jump {defined : Set Nat} {instruction : ι} : certain ⊆ defined → IsJump instruction target →
      Leaves target certain (some defined) [.inst instruction]

namespace Leaves

variable {target : Nat} {certain : Set Nat} {flow : Flow} {code : Code ι}

theorem defs_eq (hleaves : Leaves target certain flow code) : code.defs = [] := by
  cases hleaves with
  | ended => rfl
  | jump _ hjump => simp [hjump.defs]

theorem labels_eq (hleaves : Leaves target certain flow code) : code.labels = [] := by
  cases hleaves with
  | ended => rfl
  | jump _ _ => rfl

theorem target_eq (hleaves : Leaves target certain flow code) {other : Nat}
    (hother : other ∈ code.targets) : other = target := by
  cases hleaves with
  | ended => simp at hother
  | jump _ hjump => simpa [hjump.targets] using hother

theorem checked (hleaves : Leaves target certain flow code) {atLabel : Nat → Set Nat}
    (htarget : atLabel target = certain) : Checked atLabel flow code none := by
  cases hleaves with
  | ended => exact .nil
  | jump hsubset hjump =>
      refine .terminator hjump.isTerminator (by simp [hjump.uses]) ?_ .nil
      intro other hother
      rw [hjump.targets, List.mem_singleton] at hother
      rw [hother, htarget]
      exact hsubset

end Leaves

theorem IsBranch.checked {instruction : ι} {defined : Set Nat} {first second : Nat}
    (hbranch : IsBranch instruction defined first second) {atLabel : Nat → Set Nat}
    (hfirst : atLabel first = defined) (hsecond : atLabel second = defined) :
    Checked atLabel (some defined) [.inst instruction] none := by
  refine .terminator hbranch.isTerminator hbranch.uses ?_ .nil
  intro target htarget
  cases hbranch.targets target htarget with
  | inl heq => rw [heq, hfirst]
  | inr heq => rw [heq, hsecond]

/-- One certificate from that of three pieces and the labels between them. -/
theorem glue {labels labels₁ labels₂ labels₃ : Nat} (own first second third : Nat → Set Nat)
    (hfirst : labels + 3 ≤ labels₁) (hsecond : labels₁ ≤ labels₂) (hthird : labels₂ ≤ labels₃) :
    ∃ certificate : Nat → Set Nat, ∀ atLabel : Nat → Set Nat,
      (∀ label, labels ≤ label → label < labels₃ → atLabel label = certificate label) →
        (∀ label, labels ≤ label → label < labels + 3 → atLabel label = own label) ∧
        (∀ label, labels + 3 ≤ label → label < labels₁ → atLabel label = first label) ∧
        (∀ label, labels₁ ≤ label → label < labels₂ → atLabel label = second label) ∧
        ∀ label, labels₂ ≤ label → label < labels₃ → atLabel label = third label := by
  refine ⟨fun label => if label < labels + 3 then own label else
    if label < labels₁ then first label else
      if label < labels₂ then second label else third label, ?_⟩
  intro atLabel hagrees
  simp only at hagrees
  refine ⟨?_, ?_, ?_, ?_⟩
  · intro label hlow hhigh
    rw [hagrees label hlow (by omega), if_pos hhigh]
  · intro label hlow hhigh
    rw [hagrees label (by omega) (by omega), if_neg (by omega), if_pos hhigh]
  · intro label hlow hhigh
    rw [hagrees label (by omega) (by omega), if_neg (by omega), if_neg (by omega), if_pos hhigh]
  · intro label hlow hhigh
    rw [hagrees label (by omega) hhigh, if_neg (by omega), if_neg (by omega),
      if_neg (by omega)]

theorem Fresh.three (low : Nat) : Fresh low (low + 3) [low, low + 1, low + 2] :=
  ⟨by simp, by simp⟩

namespace Segment

variable {registers labels registers₁ labels₁ registers₂ labels₂ registers₃ labels₃ : Nat}
  {before middle after : Flow} {first second code : Code ι}

theorem nil : Segment registers labels before ([] : Code ι) registers labels before where
  registers_le := Nat.le_refl _
  labels_le := Nat.le_refl _
  fresh_defs := .nil
  fresh_labels := .nil
  targets_inside := by simp
  checked := ⟨fun _ => ∅, fun _ _ => .nil⟩

theorem append
    (hfirst : Segment registers labels before first registers₁ labels₁ middle)
    (hsecond : Segment registers₁ labels₁ middle second registers₂ labels₂ after) :
    Segment registers labels before (first ++ second) registers₂ labels₂ after where
  registers_le := hfirst.registers_le.trans hsecond.registers_le
  labels_le := hfirst.labels_le.trans hsecond.labels_le
  fresh_defs := by
    rw [Code.defs_append]
    exact hfirst.fresh_defs.append hsecond.fresh_defs hfirst.registers_le hsecond.registers_le
  fresh_labels := by
    rw [Code.labels_append]
    exact hfirst.fresh_labels.append hsecond.fresh_labels hfirst.labels_le hsecond.labels_le
  targets_inside := by
    intro target htarget
    rw [Code.targets_append, List.mem_append] at htarget
    rw [Code.labels_append, List.mem_append]
    exact htarget.imp (hfirst.targets_inside target) (hsecond.targets_inside target)
  checked := by
    obtain ⟨firstCertificate, hfirstChecked⟩ := hfirst.checked
    obtain ⟨secondCertificate, hsecondChecked⟩ := hsecond.checked
    refine ⟨fun label => if label < labels₁ then firstCertificate label
      else secondCertificate label, ?_⟩
    intro atLabel hagrees
    refine (hfirstChecked atLabel ?_).append (hsecondChecked atLabel ?_)
    · intro label hlow hhigh
      have hle := hsecond.labels_le
      simpa [hhigh] using hagrees label hlow (by omega)
    · intro label hlow hhigh
      have hle := hfirst.labels_le
      simpa [Nat.not_lt.mpr hlow] using hagrees label (by omega) hhigh

theorem effect {defined : Set Nat} {instruction : ι}
    (hopen : isTerminator instruction = false)
    (huses : ∀ register ∈ uses instruction, register ∈ defined)
    (htargets : Instruction.targets instruction = [])
    (hdefs : Instruction.defs instruction = []) :
    Segment registers labels (some defined) [.inst instruction] registers labels
      (some defined) where
  registers_le := Nat.le_refl _
  labels_le := Nat.le_refl _
  fresh_defs := by simpa [hdefs] using Fresh.nil
  fresh_labels := .nil
  targets_inside := by simp [htargets]
  checked := by
    refine ⟨fun _ => ∅, fun _ _ => .inst hopen huses htargets ?_⟩
    have hsame : defined ∪ {register | register ∈ Instruction.defs instruction} = defined := by
      ext register
      simp [hdefs]
    rw [hsame]
    exact .nil

theorem define {defined : Set Nat} {instruction : ι}
    (hopen : isTerminator instruction = false)
    (huses : ∀ register ∈ uses instruction, register ∈ defined)
    (htargets : Instruction.targets instruction = [])
    (hdefs : Instruction.defs instruction = [registers]) :
    Segment registers labels (some defined) [.inst instruction] (registers + 1) labels
      (some (defined ∪ {registers})) where
  registers_le := Nat.le_succ _
  labels_le := Nat.le_refl _
  fresh_defs := by simpa [hdefs] using Fresh.single
  fresh_labels := .nil
  targets_inside := by simp [htargets]
  checked := by
    refine ⟨fun _ => ∅, fun _ _ => .inst hopen huses htargets ?_⟩
    have hsame : defined ∪ {register | register ∈ Instruction.defs instruction} =
        defined ∪ {registers} := by
      ext register
      simp [hdefs]
    rw [hsame]
    exact .nil

theorem leave {defined : Set Nat} {instruction : ι}
    (hclosed : isTerminator instruction = true)
    (huses : ∀ register ∈ uses instruction, register ∈ defined)
    (htargets : Instruction.targets instruction = [])
    (hdefs : Instruction.defs instruction = []) :
    Segment registers labels (some defined) [.inst instruction] registers labels none where
  registers_le := Nat.le_refl _
  labels_le := Nat.le_refl _
  fresh_defs := by simpa [hdefs] using Fresh.nil
  fresh_labels := .nil
  targets_inside := by simp [htargets]
  checked := ⟨fun _ => ∅, fun _ _ =>
    .terminator hclosed huses (by simp [htargets]) .nil⟩

theorem unreachable (defined : Set Nat) :
    Segment registers labels none [(.label labels : Line ι)] registers (labels + 1)
      (some defined) where
  registers_le := Nat.le_refl _
  labels_le := Nat.le_succ _
  fresh_defs := .nil
  fresh_labels := by simpa using Fresh.single
  targets_inside := by simp
  checked := by
    refine ⟨fun _ => defined, ?_⟩
    intro atLabel hagrees
    have hown : atLabel labels = defined := hagrees labels (Nat.le_refl _) (Nat.lt_succ_self _)
    exact .label (hown ▸ .nil)

section

variable {defined : Set Nat} {branch : ι} {start thenCode thenJump elseCode elseJump : Code ι}
  {thenAfter elseAfter : Flow}

theorem diamond
    (hstart : Segment registers (labels + 3) before start registers₁ labels₁ (some defined))
    (hbranch : IsBranch branch defined labels (labels + 1))
    (hthen : Segment registers₁ labels₁ (some defined) thenCode registers₂ labels₂ thenAfter)
    (hthenJump : Leaves (labels + 2) defined thenAfter thenJump)
    (helse : Segment registers₂ labels₂ (some defined) elseCode registers₃ labels₃ elseAfter)
    (helseJump : Leaves (labels + 2) defined elseAfter elseJump) :
    Segment registers labels before
      (start ++ [.inst branch, .label labels] ++ thenCode ++ thenJump ++
        [.label (labels + 1)] ++ elseCode ++ elseJump ++ [.label (labels + 2)])
      registers₃ labels₃ (some defined) where
  registers_le := hstart.registers_le.trans (hthen.registers_le.trans helse.registers_le)
  labels_le := by
    have hfirst := hstart.labels_le
    have hsecond := hthen.labels_le
    have hthird := helse.labels_le
    omega
  fresh_defs := by
    have hboth := (hstart.fresh_defs.append hthen.fresh_defs hstart.registers_le
      hthen.registers_le).append helse.fresh_defs
        (hstart.registers_le.trans hthen.registers_le) helse.registers_le
    simpa [hbranch.defs, hthenJump.defs_eq, helseJump.defs_eq] using hboth
  fresh_labels := by
    have hall := ((((Fresh.three labels).append hstart.fresh_labels (by omega)
      hstart.labels_le).append hthen.fresh_labels (by have := hstart.labels_le; omega)
      hthen.labels_le).append helse.fresh_labels
        (by have := hstart.labels_le; have := hthen.labels_le; omega) helse.labels_le)
    refine hall.perm ?_
    simp only [Code.labels_append, Code.labels_cons, Code.labels_nil, Line.labels_label,
      Line.labels_inst, hthenJump.labels_eq, helseJump.labels_eq]
    rw [List.perm_iff_count]
    intro label
    simp only [List.count_append, List.count_cons, List.count_nil]
    omega
  targets_inside := by
    intro target htarget
    simp only [Code.targets_append, Code.targets_cons, Code.targets_nil, Line.targets_label,
      Line.targets_inst, List.mem_append, List.append_nil] at htarget
    simp only [Code.labels_append, Code.labels_cons, Code.labels_nil, Line.labels_label,
      Line.labels_inst, List.mem_append, List.append_nil, List.nil_append,
      List.mem_singleton]
    rcases htarget with ((((htarget | htarget) | htarget) | htarget) | htarget) | htarget
    · simp [hstart.targets_inside target htarget]
    · have heither := hbranch.targets target htarget
      omega
    · simp [hthen.targets_inside target htarget]
    · simp [hthenJump.target_eq htarget]
    · simp [helse.targets_inside target htarget]
    · simp [helseJump.target_eq htarget]
  checked := by
    obtain ⟨startCertificate, hstartChecked⟩ := hstart.checked
    obtain ⟨thenCertificate, hthenChecked⟩ := hthen.checked
    obtain ⟨elseCertificate, helseChecked⟩ := helse.checked
    obtain ⟨certificate, hglue⟩ := glue (fun _ => defined) startCertificate thenCertificate
      elseCertificate hstart.labels_le hthen.labels_le helse.labels_le
    refine ⟨certificate, ?_⟩
    intro atLabel hagrees
    obtain ⟨hown, hstart', hthen', helse'⟩ := hglue atLabel hagrees
    have hstart' := hstartChecked atLabel hstart'
    have hthen' := hthenChecked atLabel hthen'
    have helse' := helseChecked atLabel helse'
    have hfork := hbranch.checked (hown labels (by omega) (by omega))
      (hown (labels + 1) (by omega) (by omega))
    have hthenPart := (hthen'.append (hthenJump.checked (hown _ (by omega) (by omega))))
    have helsePart := (helse'.append (helseJump.checked (hown _ (by omega) (by omega))))
    have hthenLabel : Checked atLabel none (.label labels :: (thenCode ++ thenJump)) none :=
      .label (by rwa [hown labels (by omega) (by omega)])
    have helseLabel : Checked atLabel none (.label (labels + 1) :: (elseCode ++ elseJump)) none :=
      .label (by rwa [hown (labels + 1) (by omega) (by omega)])
    have hmerge : Checked atLabel none [(.label (labels + 2) : Line ι)] (some defined) :=
      .label (by rw [hown (labels + 2) (by omega) (by omega)]; exact .nil)
    simpa using hstart'.append (hfork.append (hthenLabel.append (helseLabel.append hmerge)))

theorem branchOver
    (hstart : Segment registers (labels + 3) before start registers₁ labels₁ (some defined))
    (hbranch : IsBranch branch defined labels (labels + 2))
    (hthen : Segment registers₁ labels₁ (some defined) thenCode registers₂ labels₂ thenAfter)
    (hthenJump : Leaves (labels + 2) defined thenAfter thenJump) :
    Segment registers labels before
      (start ++ [.inst branch, .label labels] ++ thenCode ++ thenJump ++ [.label (labels + 2)])
      registers₂ labels₂ (some defined) where
  registers_le := hstart.registers_le.trans hthen.registers_le
  labels_le := by
    have hfirst := hstart.labels_le
    have hsecond := hthen.labels_le
    omega
  fresh_defs := by
    have hboth := hstart.fresh_defs.append hthen.fresh_defs hstart.registers_le
      hthen.registers_le
    simpa [hbranch.defs, hthenJump.defs_eq] using hboth
  fresh_labels := by
    have htwo : Fresh labels (labels + 3) [labels, labels + 2] := ⟨by simp, by simp⟩
    have hall := (htwo.append hstart.fresh_labels (by omega) hstart.labels_le).append
      hthen.fresh_labels (by have := hstart.labels_le; omega) hthen.labels_le
    refine hall.perm ?_
    simp only [Code.labels_append, Code.labels_cons, Code.labels_nil, Line.labels_label,
      Line.labels_inst, hthenJump.labels_eq]
    rw [List.perm_iff_count]
    intro label
    simp only [List.count_append, List.count_cons, List.count_nil]
    omega
  targets_inside := by
    intro target htarget
    simp only [Code.targets_append, Code.targets_cons, Code.targets_nil, Line.targets_label,
      Line.targets_inst, List.mem_append, List.append_nil] at htarget
    simp only [Code.labels_append, Code.labels_cons, Code.labels_nil, Line.labels_label,
      Line.labels_inst, List.mem_append, List.append_nil, List.nil_append,
      List.mem_singleton]
    rcases htarget with ((htarget | htarget) | htarget) | htarget
    · simp [hstart.targets_inside target htarget]
    · have heither := hbranch.targets target htarget
      omega
    · simp [hthen.targets_inside target htarget]
    · simp [hthenJump.target_eq htarget]
  checked := by
    obtain ⟨startCertificate, hstartChecked⟩ := hstart.checked
    obtain ⟨thenCertificate, hthenChecked⟩ := hthen.checked
    obtain ⟨certificate, hglue⟩ := glue (fun _ => defined) startCertificate thenCertificate
      thenCertificate hstart.labels_le hthen.labels_le (Nat.le_refl _)
    refine ⟨certificate, ?_⟩
    intro atLabel hagrees
    obtain ⟨hown, hstart', hthen', -⟩ := hglue atLabel hagrees
    have hstart' := hstartChecked atLabel hstart'
    have hthen' := hthenChecked atLabel hthen'
    have hfork := hbranch.checked (hown labels (by omega) (by omega))
      (hown (labels + 2) (by omega) (by omega))
    have hthenPart := (hthen'.append (hthenJump.checked (hown _ (by omega) (by omega))))
    have hthenLabel : Checked atLabel none (.label labels :: (thenCode ++ thenJump)) none :=
      .label (by rwa [hown labels (by omega) (by omega)])
    have hmerge : Checked atLabel none [(.label (labels + 2) : Line ι)] (some defined) :=
      .label (by rw [hown (labels + 2) (by omega) (by omega)]; exact .nil)
    simpa using hstart'.append (hfork.append (hthenLabel.append hmerge))

end

section

variable {defined inside : Set Nat} {jump branch : ι} {start test body back : Code ι}
  {bodyAfter : Flow}

theorem whileLoop
    (hstart : Segment registers (labels + 3) before start registers₁ labels₁ (some defined))
    (hjump : IsJump jump labels)
    (htest : Segment registers₁ labels₁ (some defined) test registers₂ labels₂ (some inside))
    (hbranch : IsBranch branch inside (labels + 1) (labels + 2))
    (hbody : Segment registers₂ labels₂ (some inside) body registers₃ labels₃ bodyAfter)
    (hback : Leaves labels defined bodyAfter back) :
    Segment registers labels before
      (start ++ [.inst jump, .label labels] ++ test ++ [.inst branch, .label (labels + 1)] ++
        body ++ back ++ [.label (labels + 2)])
      registers₃ labels₃ (some inside) where
  registers_le := hstart.registers_le.trans (htest.registers_le.trans hbody.registers_le)
  labels_le := by
    have hfirst := hstart.labels_le
    have hsecond := htest.labels_le
    have hthird := hbody.labels_le
    omega
  fresh_defs := by
    have hall := (hstart.fresh_defs.append htest.fresh_defs hstart.registers_le
      htest.registers_le).append hbody.fresh_defs
        (hstart.registers_le.trans htest.registers_le) hbody.registers_le
    simpa [hjump.defs, hbranch.defs, hback.defs_eq] using hall
  fresh_labels := by
    have hall := ((((Fresh.three labels).append hstart.fresh_labels (by omega)
      hstart.labels_le).append htest.fresh_labels (by have := hstart.labels_le; omega)
      htest.labels_le).append hbody.fresh_labels
        (by have := hstart.labels_le; have := htest.labels_le; omega) hbody.labels_le)
    refine hall.perm ?_
    simp only [Code.labels_append, Code.labels_cons, Code.labels_nil, Line.labels_label,
      Line.labels_inst, hback.labels_eq]
    rw [List.perm_iff_count]
    intro label
    simp only [List.count_append, List.count_cons, List.count_nil]
    omega
  targets_inside := by
    intro target htarget
    simp only [Code.targets_append, Code.targets_cons, Code.targets_nil, Line.targets_label,
      Line.targets_inst, List.mem_append, List.append_nil, hjump.targets,
      List.mem_singleton] at htarget
    simp only [Code.labels_append, Code.labels_cons, Code.labels_nil, Line.labels_label,
      Line.labels_inst, List.mem_append, List.append_nil, List.nil_append,
      List.mem_singleton]
    rcases htarget with ((((htarget | htarget) | htarget) | htarget) | htarget) | htarget
    · simp [hstart.targets_inside target htarget]
    · simp [htarget]
    · simp [htest.targets_inside target htarget]
    · have heither := hbranch.targets target htarget
      omega
    · simp [hbody.targets_inside target htarget]
    · simp [hback.target_eq htarget]
  checked := by
    obtain ⟨startCertificate, hstartChecked⟩ := hstart.checked
    obtain ⟨testCertificate, htestChecked⟩ := htest.checked
    obtain ⟨bodyCertificate, hbodyChecked⟩ := hbody.checked
    obtain ⟨certificate, hglue⟩ := glue (fun label => if label = labels then defined else inside)
      startCertificate testCertificate bodyCertificate hstart.labels_le htest.labels_le
      hbody.labels_le
    refine ⟨certificate, ?_⟩
    intro atLabel hagrees
    obtain ⟨hown, hstart', htest', hbody'⟩ := hglue atLabel hagrees
    have hhead : atLabel labels = defined := by simpa using hown labels (by omega) (by omega)
    have hinside : atLabel (labels + 1) = inside := by
      simpa using hown (labels + 1) (by omega) (by omega)
    have hend : atLabel (labels + 2) = inside := by
      simpa using hown (labels + 2) (by omega) (by omega)
    have hstart' := hstartChecked atLabel hstart'
    have htest' := htestChecked atLabel htest'
    have hbody' := hbodyChecked atLabel hbody'
    have hgo : Checked atLabel (some defined) [.inst jump] none :=
      (Leaves.jump (fun _ hmem => hmem) hjump).checked hhead
    have htestPart := htest'.append (hbranch.checked hinside hend)
    have hbodyPart := hbody'.append (hback.checked hhead)
    have htestLabel : Checked atLabel none (.label labels :: (test ++ [.inst branch])) none :=
      .label (by rwa [hhead])
    have hbodyLabel : Checked atLabel none (.label (labels + 1) :: (body ++ back)) none :=
      .label (by rwa [hinside])
    have hendLabel : Checked atLabel none [(.label (labels + 2) : Line ι)] (some inside) :=
      .label (by rw [hend]; exact .nil)
    simpa using
      hstart'.append (hgo.append (htestLabel.append (hbodyLabel.append hendLabel)))

/-- A loop only a terminator of its body leaves; nothing reaches its end label. -/
theorem endlessLoop (hjump : IsJump jump labels)
    (hbody : Segment registers (labels + 2) (some defined) body registers₁ labels₁ bodyAfter)
    (hback : Leaves labels defined bodyAfter back) :
    Segment registers labels (some defined)
      ([.inst jump, .label labels] ++ body ++ back ++ [.label (labels + 1)])
      registers₁ labels₁ (some defined) where
  registers_le := hbody.registers_le
  labels_le := by
    have hle := hbody.labels_le
    omega
  fresh_defs := by
    simpa [hjump.defs, hback.defs_eq] using hbody.fresh_defs
  fresh_labels := by
    have htwo : Fresh labels (labels + 2) [labels, labels + 1] := ⟨by simp, by simp⟩
    have hall := htwo.append hbody.fresh_labels (by omega) hbody.labels_le
    refine hall.perm ?_
    simp only [Code.labels_append, Code.labels_cons, Code.labels_nil, Line.labels_label,
      Line.labels_inst, hback.labels_eq]
    rw [List.perm_iff_count]
    intro label
    simp only [List.count_append, List.count_cons, List.count_nil]
    omega
  targets_inside := by
    intro target htarget
    simp only [Code.targets_append, Code.targets_cons, Code.targets_nil, Line.targets_label,
      Line.targets_inst, List.mem_append, List.append_nil, hjump.targets,
      List.mem_singleton] at htarget
    simp only [Code.labels_append, Code.labels_cons, Code.labels_nil, Line.labels_label,
      Line.labels_inst, List.mem_append, List.append_nil, List.nil_append,
      List.mem_singleton]
    rcases htarget with (htarget | htarget) | htarget
    · simp [htarget]
    · simp [hbody.targets_inside target htarget]
    · simp [hback.target_eq htarget]
  checked := by
    obtain ⟨bodyCertificate, hbodyChecked⟩ := hbody.checked
    refine ⟨fun label => if label < labels + 2 then defined else bodyCertificate label, ?_⟩
    intro atLabel hagrees
    have hle := hbody.labels_le
    have hown : ∀ label, labels ≤ label → label < labels + 2 → atLabel label = defined := by
      intro label hlow hhigh
      simpa [hhigh] using hagrees label hlow (by omega)
    have hbody' := hbodyChecked atLabel (by
      intro label hlow hhigh
      simpa [Nat.not_lt.mpr hlow] using hagrees label (by omega) hhigh)
    have hhead := hown labels (by omega) (by omega)
    have hgo : Checked atLabel (some defined) [.inst jump] none :=
      (Leaves.jump (fun _ hmem => hmem) hjump).checked hhead
    have hbodyPart := hbody'.append (hback.checked hhead)
    have hbodyLabel : Checked atLabel none (.label labels :: (body ++ back)) none :=
      .label (by rwa [hhead])
    have hendLabel : Checked atLabel none [(.label (labels + 1) : Line ι)] (some defined) :=
      .label (by rw [hown (labels + 1) (by omega) (by omega)]; exact .nil)
    simpa using hgo.append (hbodyLabel.append hendLabel)

end

theorem wellFormed
    (hsegment : Segment registers labels (some ∅) code registers₁ labels₁ none) :
    code.WellFormed where
  labels_unique := hsegment.fresh_labels.nodup
  targets_defined := hsegment.targets_inside
  blocks_closed := by
    obtain ⟨certificate, hchecked⟩ := hsegment.checked
    exact (hchecked certificate (fun _ _ _ => rfl)).blocksClosed
  defs_unique := hsegment.fresh_defs.nodup
  uses_defined := by
    intro defined instruction rest hpath
    obtain ⟨certificate, hchecked⟩ := hsegment.checked
    exact (hchecked certificate (fun _ _ _ => rfl)).uses_defined hpath

end Segment

end Library
