import Mathlib.Data.List.Basic
import Mathlib.Data.List.Induction
import Mathlib.Data.List.Nodup

namespace Library

variable {α : Type} [DecidableEq α]

/-! A memory of linked cells is kept by field: each link field is a function on the cells. -/

def setField {β : Type} (field : α → β) (cell : α) (value : β) : α → β :=
  fun other => if other = cell then value else field other

@[simp] theorem setField_same {β : Type} (field : α → β) (cell : α) (value : β) :
    setField field cell value cell = value := by
  simp [setField]

theorem setField_other {β : Type} {field : α → β} {cell other : α} {value : β}
    (hne : other ≠ cell) : setField field cell value other = field other := by
  simp [setField, hne]

/-- Writing one field of a cell that may be missing. -/
def setFieldOf {β : Type} (field : α → β) : Option α → β → α → β
  | none, _ => field
  | some cell, value => setField field cell value

@[simp] theorem setFieldOf_none {β : Type} (field : α → β) (value : β) :
    setFieldOf field none value = field :=
  rfl

theorem setFieldOf_other {β : Type} {field : α → β} {cell : Option α} {other : α} {value : β}
    (hne : cell ≠ some other) : setFieldOf field cell value other = field other := by
  cases cell with
  | none => rfl
  | some cell => exact setField_other fun heq => hne (by rw [heq])

/-! One-way chains: from `start` along `link` to `stop`. -/

def Chained (link : α → Option α) : Option α → List α → Option α → Prop
  | start, [], stop => start = stop
  | start, cell :: rest, stop => start = some cell ∧ Chained link (link cell) rest stop

namespace Chained

variable {link : α → Option α} {start stop : Option α} {cells : List α}

omit [DecidableEq α] in
theorem frame {other : α → Option α} (hsame : ∀ cell ∈ cells, other cell = link cell)
    (hchain : Chained link start cells stop) : Chained other start cells stop := by
  induction cells generalizing start with
  | nil => exact hchain
  | cons cell rest ih =>
      refine ⟨hchain.1, ?_⟩
      rw [hsame cell (List.mem_cons_self ..)]
      exact ih (fun other hother => hsame other (List.mem_cons_of_mem _ hother)) hchain.2

theorem setField {cell : α} (hfresh : cell ∉ cells) (value : Option α)
    (hchain : Chained link start cells stop) :
    Chained (setField link cell value) start cells stop :=
  hchain.frame fun _ hother => setField_other fun heq => hfresh (heq ▸ hother)

omit [DecidableEq α] in
theorem append {back : List α} : Chained link start (cells ++ back) stop ↔
    ∃ middle, Chained link start cells middle ∧ Chained link middle back stop := by
  induction cells generalizing start with
  | nil => simp [Chained]
  | cons cell rest ih => simp [Chained, ih, and_assoc]

/-- The last cell is made to lead elsewhere. -/
theorem retarget {last : α} (hfresh : last ∉ cells)
    (hchain : Chained link start (cells ++ [last]) stop) (stop' : Option α) :
    Chained (Library.setField link last stop') start (cells ++ [last]) stop' := by
  obtain ⟨middle, hfront, hlast, -⟩ := append.mp hchain
  exact append.mpr ⟨middle, hfront.setField hfresh stop', hlast, by simp [Chained]⟩

end Chained

/-! Two-way lists: `next` leads from `start` to `stop`, and `prev` leads back to `before`. -/

def Doubly (next prev : α → Option α) :
    Option α → Option α → List α → Option α → Prop
  | _, start, [], stop => start = stop
  | before, start, cell :: rest, stop =>
      start = some cell ∧ prev cell = before ∧ Doubly next prev (some cell) (next cell) rest stop

/-- The last cell of a list that stands behind `before`. -/
def lastOr (before : Option α) : List α → Option α
  | [] => before
  | cell :: rest => lastOr (some cell) rest

omit [DecidableEq α] in
@[simp] theorem lastOr_concat (before : Option α) (front : List α) (last : α) :
    lastOr before (front ++ [last]) = some last := by
  induction front generalizing before with
  | nil => rfl
  | cons cell rest ih => exact ih _

omit [DecidableEq α] in
theorem lastOr_none (cells : List α) : lastOr none cells = cells.getLast? := by
  cases cells using List.reverseRecOn with
  | nil => rfl
  | append_singleton front last => simp

namespace Doubly

variable {next prev : α → Option α} {before start stop : Option α} {cells : List α}

omit [DecidableEq α] in
theorem frame {next' prev' : α → Option α} (hnext : ∀ cell ∈ cells, next' cell = next cell)
    (hprev : ∀ cell ∈ cells, prev' cell = prev cell)
    (hlist : Doubly next prev before start cells stop) :
    Doubly next' prev' before start cells stop := by
  induction cells generalizing before start with
  | nil => exact hlist
  | cons cell rest ih =>
      have hmem := List.mem_cons_self (a := cell) (l := rest)
      refine ⟨hlist.1, by rw [hprev cell hmem, hlist.2.1], ?_⟩
      rw [hnext cell hmem]
      exact ih (fun other hother => hnext other (List.mem_cons_of_mem _ hother))
        (fun other hother => hprev other (List.mem_cons_of_mem _ hother)) hlist.2.2

theorem setNext {cell : α} (hfresh : cell ∉ cells) (value : Option α)
    (hlist : Doubly next prev before start cells stop) :
    Doubly (setField next cell value) prev before start cells stop :=
  hlist.frame (fun _ hother => setField_other fun heq => hfresh (heq ▸ hother)) fun _ _ => rfl

theorem setPrev {cell : α} (hfresh : cell ∉ cells) (value : Option α)
    (hlist : Doubly next prev before start cells stop) :
    Doubly next (setField prev cell value) before start cells stop :=
  hlist.frame (fun _ _ => rfl) fun _ hother => setField_other fun heq => hfresh (heq ▸ hother)

omit [DecidableEq α] in
theorem append {back : List α} : Doubly next prev before start (cells ++ back) stop ↔
    ∃ middle, Doubly next prev before start cells middle ∧
      Doubly next prev (lastOr before cells) middle back stop := by
  induction cells generalizing before start with
  | nil => simp [Doubly, lastOr]
  | cons cell rest ih => simp [Doubly, ih, lastOr, and_assoc]

omit [DecidableEq α] in
/-- The way along `next` alone. -/
theorem chained (hlist : Doubly next prev before start cells stop) :
    Chained next start cells stop := by
  induction cells generalizing before start with
  | nil => exact hlist
  | cons cell rest ih => exact ⟨hlist.1, ih hlist.2.2⟩

omit [DecidableEq α] in
theorem start_eq (hlist : Doubly next prev before start cells stop) :
    start = cells.head?.or stop := by
  cases cells with
  | nil => simpa [Doubly] using hlist
  | cons cell rest => simpa using hlist.1

/-- A list is put behind another cell. -/
theorem rebefore (hnodup : cells.Nodup) (hlist : Doubly next prev before start cells stop)
    (before' : Option α) :
    Doubly next (setFieldOf prev cells.head? before') before' start cells stop := by
  cases cells with
  | nil => exact hlist
  | cons cell rest =>
      refine ⟨hlist.1, by simp [setFieldOf], ?_⟩
      exact hlist.2.2.setPrev (List.nodup_cons.mp hnodup).1 before'

/-- A list that starts at no other cell is made to lead elsewhere. -/
theorem retarget (hnodup : cells.Nodup) (hlist : Doubly next prev none start cells stop)
    (stop' : Option α) :
    Doubly (setFieldOf next cells.getLast? stop') prev none
      (if cells.getLast?.isSome then start else stop') cells stop' := by
  cases cells using List.reverseRecOn with
  | nil => simp [Doubly]
  | append_singleton front last =>
      have hfresh : last ∉ front := by
        have hdisjoint := List.nodup_append.mp hnodup
        exact fun hmem => hdisjoint.2.2 last hmem last (List.mem_singleton_self _) rfl
      obtain ⟨middle, hfront, hmiddle, hback, -⟩ := append.mp hlist
      simp only [List.getLast?_concat, Option.isSome_some, if_true, setFieldOf]
      exact append.mpr ⟨middle, hfront.setNext hfresh stop', hmiddle, hback, by simp [Doubly]⟩

omit [DecidableEq α] in
theorem neighbours {front back : List α} {cell : α}
    (hlist : Doubly next prev none start (front ++ cell :: back) none) :
    prev cell = front.getLast? ∧ next cell = back.head? := by
  obtain ⟨middle, -, -, hprev, hback⟩ := append.mp hlist
  rw [lastOr_none] at hprev
  exact ⟨hprev, by simpa using hback.start_eq⟩

/-- A cell is taken out, and its neighbours lead to each other. -/
theorem remove {front back : List α} {cell : α} (hnodup : (front ++ cell :: back).Nodup)
    (hlist : Doubly next prev none start (front ++ cell :: back) none) :
    Doubly (setFieldOf next front.getLast? back.head?) (setFieldOf prev back.head? front.getLast?)
      none (if front.getLast?.isSome then start else back.head?) (front ++ back) none := by
  obtain ⟨hfrontNodup, hcell, hdisjoint⟩ := List.nodup_append.mp hnodup
  have hbackNodup := (List.nodup_cons.mp hcell).2
  obtain ⟨middle, hfront, -, hprev, hback⟩ := append.mp hlist
  rw [show next cell = back.head? from (hlist.neighbours).2] at hback
  have hapart : ∀ other ∈ front, other ∉ back := fun other hother hmem =>
    hdisjoint other hother other (List.mem_cons_of_mem _ hmem) rfl
  refine append.mpr ⟨back.head?, ?_, ?_⟩
  · refine (hfront.retarget hfrontNodup back.head?).frame (fun _ _ => rfl) fun other hother => ?_
    exact setFieldOf_other fun heq => hapart other hother (List.mem_of_mem_head? heq)
  · rw [lastOr_none]
    refine (hback.rebefore hbackNodup front.getLast?).frame (fun other hother => ?_) fun _ _ => rfl
    exact setFieldOf_other fun heq => hapart other (List.mem_of_mem_getLast? heq) hother

/-- A cell is put in front. -/
theorem cons {cell : α} (hfresh : cell ∉ cells) (hnodup : cells.Nodup)
    (hlist : Doubly next prev none start cells none) :
    Doubly (setField next cell start) (setFieldOf (setField prev cell none) start (some cell))
      none (some cell) (cell :: cells) none := by
  have hstart : start = cells.head? := by simpa using hlist.start_eq
  refine ⟨rfl, ?_, ?_⟩
  · rw [setFieldOf_other, setField_same]
    rw [hstart]
    exact fun heq => hfresh (List.mem_of_mem_head? heq)
  · rw [setField_same]
    have hback := ((hlist.setNext hfresh start).setPrev hfresh none).rebefore hnodup (some cell)
    rwa [← hstart] at hback

end Doubly

end Library
