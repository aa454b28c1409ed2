import Mathlib.Order.Defs.Unbundled

namespace Library

namespace Runs

/-! Runs that change a state and may fail: what they keep of the state, what they do alike in
related states, and when a run repeated is a run copied. -/

variable {ε σ α β : Type}

theorem bind_eq_ok {first : EStateM ε σ α} {next : α → EStateM ε σ β} {state after : σ} {b : β} :
    (first >>= next) state = .ok b after ↔
      ∃ a middle, first state = .ok a middle ∧ next a middle = .ok b after := by
  change EStateM.bind first next state = _ ↔ _
  unfold EStateM.bind
  cases first state with
  | ok a middle =>
      constructor
      · exact fun hnext => ⟨a, middle, rfl, hnext⟩
      · rintro ⟨b, later, hfirst, hnext⟩
        cases hfirst
        exact hnext
  | error fault middle => simp

theorem pure_eq_ok {a b : α} {state after : σ} :
    (pure a : EStateM ε σ α) state = .ok b after ↔ a = b ∧ state = after := by
  change EStateM.Result.ok a state = .ok b after ↔ _
  rw [EStateM.Result.ok.injEq]

theorem bind_of_ok {first : EStateM ε σ α} {next : α → EStateM ε σ β} {state middle : σ} {a : α}
    (hfirst : first state = .ok a middle) : (first >>= next) state = next a middle := by
  change EStateM.bind first next state = _
  unfold EStateM.bind
  rw [hfirst]

theorem bind_of_error {first : EStateM ε σ α} {next : α → EStateM ε σ β} {state middle : σ}
    {fault : ε} (hfirst : first state = .error fault middle) :
    (first >>= next) state = .error fault middle := by
  change EStateM.bind first next state = _
  unfold EStateM.bind
  rw [hfirst]

/-- What follows a run tells its ends apart, where it always ends well and loses nothing. -/
theorem bind_eq_bind_iff {next : α → EStateM ε σ β}
    (hok : ∀ a state, ∃ b after, next a state = .ok b after)
    (hinj : ∀ {a b state state'}, next a state = next b state' → a = b ∧ state = state')
    {first second : EStateM ε σ α} {state : σ} :
    (first >>= next) state = (second >>= next) state ↔ first state = second state := by
  cases hfirst : first state with
  | ok a middle =>
      rw [bind_of_ok hfirst]
      cases hsecond : second state with
      | ok b middle' =>
          rw [bind_of_ok hsecond]
          constructor
          · intro hnext
            obtain ⟨rfl, rfl⟩ := hinj hnext
            rfl
          · intro hsame
            cases hsame
            rfl
      | error fault middle' =>
          obtain ⟨b, after, hnext⟩ := hok a middle
          rw [bind_of_error hsecond, hnext]
          exact iff_of_false (fun h => by cases h) (fun h => by cases h)
  | error fault middle =>
      rw [bind_of_error hfirst]
      cases hsecond : second state with
      | ok b middle' =>
          obtain ⟨c, after, hnext⟩ := hok b middle'
          rw [bind_of_ok hsecond, hnext]
          exact iff_of_false (fun h => by cases h) (fun h => by cases h)
      | error fault' middle' =>
          rw [bind_of_error hsecond, EStateM.Result.error.injEq, EStateM.Result.error.injEq]

/-- A run that ends well ends in a related state. -/
def Keeps (related : σ → σ → Prop) (run : EStateM ε σ α) : Prop :=
  ∀ state a after, run state = .ok a after → related state after

section Keeps

variable {related : σ → σ → Prop}

theorem keeps_pure [Std.Refl related] (a : α) : Keeps related (pure a : EStateM ε σ α) := by
  intro state b after hrun
  cases hrun
  exact Std.Refl.refl state

theorem keeps_throw (fault : ε) : Keeps related (throw fault : EStateM ε σ α) := by
  intro state a after hrun
  cases hrun

theorem keeps_get [Std.Refl related] : Keeps related (get : EStateM ε σ σ) := by
  intro state a after hrun
  cases hrun
  exact Std.Refl.refl state

theorem keeps_modify {change : σ → σ} (hchange : ∀ state, related state (change state)) :
    Keeps related (modify change : EStateM ε σ Unit) := by
  intro state a after hrun
  cases hrun
  exact hchange state

theorem Keeps.bind [IsTrans σ related] {first : EStateM ε σ α} {next : α → EStateM ε σ β}
    (hfirst : Keeps related first) (hnext : ∀ a, Keeps related (next a)) :
    Keeps related (first >>= next) := by
  intro state b after hrun
  obtain ⟨a, middle, hhead, htail⟩ := bind_eq_ok.mp hrun
  exact IsTrans.trans _ _ _ (hfirst _ _ _ hhead) (hnext a _ _ _ htail)

theorem Keeps.ite {condition : Prop} [Decidable condition] {first second : EStateM ε σ α}
    (hfirst : Keeps related first) (hsecond : Keeps related second) :
    Keeps related (if condition then first else second) := by
  split
  · exact hfirst
  · exact hsecond

/-- A run that ends well ends in a related state, with a result that satisfies `P`. -/
def KeepsWith (related : σ → σ → Prop) (run : EStateM ε σ α) (P : α → Prop) : Prop :=
  ∀ state a after, run state = .ok a after → related state after ∧ P a

theorem Keeps.satisfying {run : EStateM ε σ α} {P : α → Prop} (hrun : Keeps related run)
    (hall : ∀ a, P a) : KeepsWith related run P :=
  fun state a after hok => ⟨hrun state a after hok, hall a⟩

theorem KeepsWith.keeps {run : EStateM ε σ α} {P : α → Prop} (hrun : KeepsWith related run P) :
    Keeps related run :=
  fun state a after hok => (hrun state a after hok).1

theorem keepsWith_pure [Std.Refl related] {P : α → Prop} (a : α) (ha : P a) :
    KeepsWith related (pure a : EStateM ε σ α) P := by
  intro state b after hrun
  cases hrun
  exact ⟨Std.Refl.refl state, ha⟩

theorem keepsWith_throw {P : α → Prop} (fault : ε) :
    KeepsWith related (throw fault : EStateM ε σ α) P := by
  intro state a after hrun
  cases hrun

theorem KeepsWith.bind [IsTrans σ related] {first : EStateM ε σ α} {next : α → EStateM ε σ β}
    {P : α → Prop} {Q : β → Prop} (hfirst : KeepsWith related first P)
    (hnext : ∀ a, P a → KeepsWith related (next a) Q) : KeepsWith related (first >>= next) Q := by
  intro state b after hrun
  obtain ⟨a, middle, hhead, htail⟩ := bind_eq_ok.mp hrun
  obtain ⟨hmiddle, ha⟩ := hfirst _ _ _ hhead
  obtain ⟨hafter, hb⟩ := hnext a ha _ _ _ htail
  exact ⟨IsTrans.trans _ _ _ hmiddle hafter, hb⟩

end Keeps

/-- A run that ends well in the first of two related states ends alike in the second. -/
def Lifts (related : σ → σ → Prop) (run : EStateM ε σ α) : Prop :=
  ∀ first second a after, related first second → run first = .ok a after →
    ∃ after', run second = .ok a after' ∧ related after after'

section Lifts

variable {related : σ → σ → Prop}

theorem lifts_pure (a : α) : Lifts related (pure a : EStateM ε σ α) := by
  intro first second b after hrelated hrun
  cases hrun
  exact ⟨second, rfl, hrelated⟩

theorem lifts_throw (fault : ε) : Lifts related (throw fault : EStateM ε σ α) := by
  intro first second a after _ hrun
  cases hrun

theorem Lifts.bind {run : EStateM ε σ α} {next : α → EStateM ε σ β} (hrun : Lifts related run)
    (hnext : ∀ a, Lifts related (next a)) : Lifts related (run >>= next) := by
  intro first second b after hrelated hboth
  obtain ⟨a, middle, hhead, htail⟩ := bind_eq_ok.mp hboth
  obtain ⟨middle', hhead', hmiddle⟩ := hrun _ _ _ _ hrelated hhead
  obtain ⟨after', htail', hafter⟩ := hnext a _ _ _ _ hmiddle htail
  exact ⟨after', bind_eq_ok.mpr ⟨a, middle', hhead', htail'⟩, hafter⟩

theorem lifts_modify {change : σ → σ}
    (hchange : ∀ {first second}, related first second → related (change first) (change second)) :
    Lifts related (modify change : EStateM ε σ Unit) := by
  intro first second a after hrelated hrun
  cases hrun
  exact ⟨change second, rfl, hchange hrelated⟩

/-- A run that lifts, with a result that satisfies `P`. -/
def LiftsWith (related : σ → σ → Prop) (run : EStateM ε σ α) (P : α → Prop) : Prop :=
  ∀ first second a after, related first second → run first = .ok a after →
    (∃ after', run second = .ok a after' ∧ related after after') ∧ P a

theorem Lifts.satisfying {run : EStateM ε σ α} {P : α → Prop} (hrun : Lifts related run)
    (hall : ∀ a, P a) : LiftsWith related run P :=
  fun first second a after hrelated hok => ⟨hrun first second a after hrelated hok, hall a⟩

theorem LiftsWith.lifts {run : EStateM ε σ α} {P : α → Prop} (hrun : LiftsWith related run P) :
    Lifts related run :=
  fun first second a after hrelated hok => (hrun first second a after hrelated hok).1

theorem liftsWith_pure {P : α → Prop} (a : α) (ha : P a) :
    LiftsWith related (pure a : EStateM ε σ α) P := by
  intro first second b after hrelated hrun
  cases hrun
  exact ⟨⟨second, rfl, hrelated⟩, ha⟩

theorem liftsWith_throw {P : α → Prop} (fault : ε) :
    LiftsWith related (throw fault : EStateM ε σ α) P := by
  intro first second a after _ hrun
  cases hrun

theorem LiftsWith.bind {run : EStateM ε σ α} {next : α → EStateM ε σ β} {P : α → Prop}
    {Q : β → Prop} (hrun : LiftsWith related run P)
    (hnext : ∀ a, P a → LiftsWith related (next a) Q) : LiftsWith related (run >>= next) Q := by
  intro first second b after hrelated hboth
  obtain ⟨a, middle, hhead, htail⟩ := bind_eq_ok.mp hboth
  obtain ⟨⟨middle', hhead', hmiddle⟩, ha⟩ := hrun _ _ _ _ hrelated hhead
  obtain ⟨⟨after', htail', hafter⟩, hb⟩ := hnext a ha _ _ _ _ hmiddle htail
  exact ⟨⟨after', bind_eq_ok.mpr ⟨a, middle', hhead', htail'⟩, hafter⟩, hb⟩

end Lifts

/-! A run repeated. -/

/-- The values of `count` runs, one behind the other. -/
def repeated (run : EStateM ε σ α) : Nat → EStateM ε σ (List α)
  | 0 => pure []
  | count + 1 => do
      let first ← run
      let rest ← repeated run count
      return first :: rest

/-- `count` copies of the value of one run. -/
def copied (run : EStateM ε σ α) (count : Nat) : EStateM ε σ (List α) := do
  return List.replicate count (← run)

/-- The run that follows gives the same value and leaves the state alone. -/
def Settles (run : EStateM ε σ α) (state : σ) : Prop :=
  ∀ a after, run state = .ok a after → run after = .ok a after

theorem keeps_repeated {related : σ → σ → Prop} [Std.Refl related] [IsTrans σ related]
    {run : EStateM ε σ α} (hrun : Keeps related run) (count : Nat) :
    Keeps related (repeated run count) := by
  induction count with
  | zero => exact keeps_pure []
  | succ count ih => exact hrun.bind fun _ => ih.bind fun _ => keeps_pure _

theorem repeated_of_fixed {run : EStateM ε σ α} {state : σ} {a : α}
    (hrun : run state = .ok a state) (count : Nat) :
    repeated run count state = .ok (List.replicate count a) state := by
  induction count with
  | zero => rfl
  | succ count ih =>
      rw [repeated, bind_of_ok hrun, bind_of_ok ih]
      rfl

/-- Where the state only grows, two or more runs are copies of the first just when the second
changes nothing. -/
theorem repeated_eq_copied_iff {related : σ → σ → Prop} [Std.Refl related] [IsTrans σ related]
    [Std.Antisymm related] {run : EStateM ε σ α} (hkeeps : Keeps related run) (count : Nat)
    (state : σ) :
    repeated run (count + 2) state = copied run (count + 2) state ↔ Settles run state := by
  cases hrun : run state with
  | error fault middle =>
      refine iff_of_true ?_ fun a after hok => by rw [hrun] at hok; cases hok
      rw [repeated, copied, bind_of_error hrun, bind_of_error hrun]
  | ok a after =>
      have hsettles : Settles run state ↔ run after = .ok a after := by
        constructor
        · intro hsettles
          exact hsettles a after hrun
        · intro hfixed b later hok
          rw [hrun] at hok
          cases hok
          exact hfixed
      rw [hsettles, repeated, copied, bind_of_ok hrun, bind_of_ok hrun]
      constructor
      · intro hcopies
        obtain ⟨values, last, hvalues, hend⟩ := bind_eq_ok.mp hcopies
        obtain ⟨b, middle, hsecond, hrest⟩ := bind_eq_ok.mp hvalues
        obtain ⟨rest, final, hothers, hlist⟩ := bind_eq_ok.mp hrest
        cases hlist
        cases hend
        -- The runs behind the second one lead back to where it started.
        obtain rfl : after = middle := Std.Antisymm.antisymm _ _ (hkeeps _ _ _ hsecond)
          (keeps_repeated hkeeps count _ _ _ hothers)
        exact hsecond
      · intro hfixed
        rw [bind_of_ok (repeated_of_fixed hfixed (count + 1))]
        rfl

end Runs

end Library
