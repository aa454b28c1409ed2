import Cnegative.Library.Runs

namespace Library

namespace Runs

variable {ε σ α β : Type}

/-! Pre- and postconditions of runs that may fail, with the faults that are let pass. -/

def Triple (allowed : ε → Prop) (pre : σ → Prop) (run : EStateM ε σ α) (post : α → σ → Prop) :
    Prop :=
  ∀ ⦃state⦄, pre state → (∀ ⦃a after⦄, run state = .ok a after → post a after) ∧
    ∀ ⦃fault after⦄, run state = .error fault after → allowed fault

namespace Triple

variable {allowed : ε → Prop} {pre : σ → Prop} {run : EStateM ε σ α} {post : α → σ → Prop}

theorem of_ok (hok : ∀ state, pre state → ∃ a after, run state = .ok a after ∧ post a after) :
    Triple allowed pre run post := by
  intro state hpre
  obtain ⟨a, after, hrun, hpost⟩ := hok state hpre
  constructor
  · intro b other hother
    rw [hrun] at hother
    cases hother
    exact hpost
  · intro fault other hother
    rw [hrun] at hother
    cases hother

theorem pure {a : α} (hpost : ∀ state, pre state → post a state) :
    Triple allowed pre (pure a : EStateM ε σ α) post :=
  of_ok fun state hpre => ⟨a, state, rfl, hpost state hpre⟩

theorem throw {fault : ε} (hallowed : allowed fault) :
    Triple allowed pre (throw fault : EStateM ε σ α) post := by
  intro state _
  constructor
  · intro a after hrun
    cases hrun
  · intro other after hrun
    cases hrun
    exact hallowed

theorem bind {mid : α → σ → Prop} {next : α → EStateM ε σ β} {last : β → σ → Prop}
    (hrun : Triple allowed pre run mid) (hnext : ∀ a, Triple allowed (mid a) (next a) last) :
    Triple allowed pre (run >>= next) last := by
  intro state hpre
  obtain ⟨hok, herror⟩ := hrun hpre
  cases hfirst : run state with
  | ok a middle =>
      rw [bind_of_ok hfirst]
      exact hnext a (hok hfirst)
  | error fault middle =>
      rw [bind_of_error hfirst]
      constructor
      · intro b after hboth
        cases hboth
      · intro other after hboth
        cases hboth
        exact herror hfirst

theorem weaken {pre' : σ → Prop} {post' : α → σ → Prop} (hrun : Triple allowed pre run post)
    (hpre : ∀ state, pre' state → pre state) (hpost : ∀ a state, post a state → post' a state) :
    Triple allowed pre' run post' := by
  intro state hstate
  obtain ⟨hok, herror⟩ := hrun (hpre state hstate)
  exact ⟨fun a after hafter => hpost a after (hok hafter), herror⟩

/-- What is known of every end of the run. -/
theorem strengthen {extra : α → Prop} (hrun : Triple allowed pre run post)
    (hextra : ∀ ⦃state a after⦄, run state = .ok a after → extra a) :
    Triple allowed pre run (fun a state => post a state ∧ extra a) := by
  intro state hpre
  obtain ⟨hok, herror⟩ := hrun hpre
  exact ⟨fun a after hafter => ⟨hok hafter, hextra hafter⟩, herror⟩

theorem of_exists {ι : Type} {pre : ι → σ → Prop}
    (hrun : ∀ i, Triple allowed (pre i) run post) :
    Triple allowed (fun state => ∃ i, pre i state) run post := by
  rintro state ⟨i, hpre⟩
  exact hrun i hpre

theorem of_and {fact : Prop} (hrun : fact → Triple allowed pre run post) :
    Triple allowed (fun state => pre state ∧ fact) run post := by
  rintro state ⟨hpre, hfact⟩
  exact hrun hfact hpre

end Triple

end Runs

end Library
