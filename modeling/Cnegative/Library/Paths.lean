import Mathlib.Data.List.Basic

namespace Library

/-! The paths of structured control flow: where a run starts, what happens on the way, how
control leaves, and where the run ends.  A condition may come out either way. -/

inductive Exit where
  | next | returned
  deriving DecidableEq, Repr

abbrev Paths (σ ε : Type) := σ → List ε → Exit → σ → Prop

namespace Paths

variable {σ α β ε : Type}

def skip : Paths σ ε := fun before events exit after =>
  events = [] ∧ exit = .next ∧ after = before

def step (event : ε) : Paths σ ε := fun before events exit after =>
  events = [event] ∧ exit = .next ∧ after = before

/-- `second` follows where `first` does not return. -/
inductive Seq (first second : Paths σ ε) : Paths σ ε
  | returned {before after : σ} {events : List ε} :
      first before events .returned after → Seq first second before events .returned after
  | next {before middle after : σ} {early late : List ε} {exit : Exit} :
      first before early .next middle → second middle late exit after →
        Seq first second before (early ++ late) exit after

inductive Rounds (body : Paths σ ε) : Paths σ ε
  | stop {before : σ} : Rounds body before [] .next before
  | returned {before after : σ} {events : List ε} :
      body before events .returned after → Rounds body before events .returned after
  | round {before middle after : σ} {early late : List ε} {exit : Exit} :
      body before early .next middle → Rounds body middle late exit after →
        Rounds body before (early ++ late) exit after

/-! One set of paths shown by another. -/

/-- Every concrete path shows an abstract one, which ends in the same place. -/
def Simulates (shows : Exit → List α → List β → Prop) (abstract : Paths σ α)
    (concrete : Paths σ β) : Prop :=
  ∀ before events exit after, concrete before events exit after →
    ∃ acts, abstract before acts exit after ∧ shows exit acts events

/-- What is shown of a path that goes on extends to what follows. -/
structure Composes (shows : Exit → List α → List β → Prop) : Prop where
  nil : shows .next [] []
  append : ∀ {exit : Exit} {acts more : List α} {events late : List β},
    shows .next acts events → shows exit more late → shows exit (acts ++ more) (events ++ late)

section Rules

variable {shows : Exit → List α → List β → Prop} {abstract abstractNext : Paths σ α}
  {concrete concreteNext : Paths σ β}

theorem Simulates.skip (hshows : Composes shows) :
    Simulates shows (skip : Paths σ α) (skip : Paths σ β) := by
  rintro before events exit after ⟨rfl, rfl, rfl⟩
  exact ⟨[], ⟨rfl, rfl, rfl⟩, hshows.nil⟩

theorem Simulates.step {act : α} {event : β} (hshows : shows .next [act] [event]) :
    Simulates shows (step act : Paths σ α) (step event) := by
  rintro before events exit after ⟨rfl, rfl, rfl⟩
  exact ⟨[act], ⟨rfl, rfl, rfl⟩, hshows⟩

theorem Simulates.seq (hshows : Composes shows) (hfirst : Simulates shows abstract concrete)
    (hnext : Simulates shows abstractNext concreteNext) :
    Simulates shows (Seq abstract abstractNext) (Seq concrete concreteNext) := by
  intro before events exit after hpath
  cases hpath with
  | returned hreturned =>
      obtain ⟨acts, habstract, hshown⟩ := hfirst _ _ _ _ hreturned
      exact ⟨acts, .returned habstract, hshown⟩
  | next hearly hlate =>
      obtain ⟨acts, habstract, hshown⟩ := hfirst _ _ _ _ hearly
      obtain ⟨more, hmore, hshownNext⟩ := hnext _ _ _ _ hlate
      exact ⟨acts ++ more, .next habstract hmore, hshows.append hshown hshownNext⟩

theorem Simulates.rounds (hshows : Composes shows) (hbody : Simulates shows abstract concrete) :
    Simulates shows (Rounds abstract) (Rounds concrete) := by
  intro before events exit after hpath
  induction hpath with
  | stop => exact ⟨[], .stop, hshows.nil⟩
  | returned hreturned =>
      obtain ⟨acts, habstract, hshown⟩ := hbody _ _ _ _ hreturned
      exact ⟨acts, .returned habstract, hshown⟩
  | round hearly _ ih =>
      obtain ⟨acts, habstract, hshown⟩ := hbody _ _ _ _ hearly
      obtain ⟨more, hmore, hshownNext⟩ := ih
      exact ⟨acts ++ more, .round habstract hmore, hshows.append hshown hshownNext⟩

end Rules

end Paths

end Library
