import Mathlib.Data.List.Basic

namespace Library

/-! Lexical scopes as a chain of frames, innermost first.  A binding is named by
the level of its frame, counted from the outermost one, and its key: pushing and
popping inner frames never changes the name of an outer binding. -/

structure Ref (κ : Type) where
  level : Nat
  key : κ
  deriving DecidableEq, Repr

structure Frame (κ β γ : Type) where
  bindings : List (κ × β)
  info : γ
  deriving Repr

abbrev Chain (κ β γ : Type) := List (Frame κ β γ)

namespace Frame

variable {κ β γ : Type} [DecidableEq κ]

def find? (frame : Frame κ β γ) (key : κ) : Option β :=
  (frame.bindings.find? (fun entry => entry.1 = key)).map Prod.snd

def define (frame : Frame κ β γ) (key : κ) (value : β) : Frame κ β γ :=
  { frame with bindings := (key, value) :: frame.bindings }

def update (frame : Frame κ β γ) (key : κ) (change : β → β) : Frame κ β γ :=
  { frame with
    bindings := frame.bindings.map fun entry =>
      if entry.1 = key then (entry.1, change entry.2) else entry }

def keys (frame : Frame κ β γ) : List κ :=
  frame.bindings.map Prod.fst

@[simp] theorem find?_nil (info : γ) (key : κ) :
    (⟨[], info⟩ : Frame κ β γ).find? key = none := rfl

@[simp] theorem find?_define (frame : Frame κ β γ) (key other : κ) (value : β) :
    (frame.define key value).find? other =
      if key = other then some value else frame.find? other := by
  by_cases heq : key = other
  · simp [define, find?, heq]
  · simp [define, find?, heq]

@[simp] theorem find?_info (frame : Frame κ β γ) (info : γ) (key : κ) :
    ({ frame with info := info } : Frame κ β γ).find? key = frame.find? key := rfl

omit [DecidableEq κ] in
@[simp] theorem keys_define (frame : Frame κ β γ) (key : κ) (value : β) :
    (frame.define key value).keys = key :: frame.keys := rfl

@[simp] theorem keys_update (frame : Frame κ β γ) (key : κ) (change : β → β) :
    (frame.update key change).keys = frame.keys := by
  simp only [keys, update, List.map_map]
  apply List.map_congr_left
  intro entry _
  by_cases heq : entry.1 = key <;> simp [heq]

theorem find?_isSome_iff (frame : Frame κ β γ) (key : κ) :
    (frame.find? key).isSome ↔ key ∈ frame.keys := by
  simp [find?, keys]

end Frame

namespace Chain

variable {κ β γ : Type} [DecidableEq κ]

/-- The innermost binding of a key, with the name of that binding. -/
def find? : Chain κ β γ → κ → Option (Ref κ × β)
  | [], _ => none
  | frame :: outer, key =>
      match frame.find? key with
      | some value => some (⟨outer.length, key⟩, value)
      | none => find? outer key

def resolve (chain : Chain κ β γ) (key : κ) : Option (Ref κ) :=
  (chain.find? key).map Prod.fst

def get? : Chain κ β γ → Ref κ → Option β
  | [], _ => none
  | frame :: outer, ref =>
      if ref.level = outer.length then frame.find? ref.key else get? outer ref

def define (chain : Chain κ β γ) (key : κ) (value : β) : Chain κ β γ :=
  match chain with
  | [] => []
  | frame :: outer => frame.define key value :: outer

def update : Chain κ β γ → Ref κ → (β → β) → Chain κ β γ
  | [], _, _ => []
  | frame :: outer, ref, change =>
      if ref.level = outer.length then frame.update ref.key change :: outer
      else frame :: update outer ref change

/-- The keys bound in each frame: what name resolution depends on. -/
def shape (chain : Chain κ β γ) : List (List κ) :=
  chain.map Frame.keys

@[simp] theorem find?_nil (key : κ) : find? ([] : Chain κ β γ) key = none := rfl

theorem find?_cons (frame : Frame κ β γ) (outer : Chain κ β γ) (key : κ) :
    find? (frame :: outer) key =
      match frame.find? key with
      | some value => some (⟨outer.length, key⟩, value)
      | none => find? outer key := rfl

@[simp] theorem find?_cons_empty (info : γ) (outer : Chain κ β γ) (key : κ) :
    find? (⟨[], info⟩ :: outer) key = find? outer key := rfl

omit [DecidableEq κ] in
@[simp] theorem length_define (chain : Chain κ β γ) (key : κ) (value : β) :
    (chain.define key value).length = chain.length := by
  cases chain <;> simp [define]

@[simp] theorem length_update (chain : Chain κ β γ) (ref : Ref κ) (change : β → β) :
    (chain.update ref change).length = chain.length := by
  induction chain with
  | nil => rfl
  | cons frame outer ih =>
      by_cases hlevel : ref.level = outer.length <;> simp [update, hlevel, ih]

@[simp] theorem shape_update (chain : Chain κ β γ) (ref : Ref κ) (change : β → β) :
    (chain.update ref change).shape = chain.shape := by
  induction chain with
  | nil => rfl
  | cons frame outer ih =>
      by_cases hlevel : ref.level = outer.length
      · simp [update, hlevel, shape]
      · simpa [update, hlevel, shape] using ih

theorem find?_define (frame : Frame κ β γ) (outer : Chain κ β γ) (key other : κ) (value : β) :
    find? (define (frame :: outer) key value) other =
      if key = other then some (⟨outer.length, key⟩, value)
      else find? (frame :: outer) other := by
  by_cases heq : key = other
  · simp [define, find?_cons, heq]
  · simp [define, find?_cons, heq]

theorem find?_level_lt {chain : Chain κ β γ} {key : κ} {ref : Ref κ} {value : β}
    (hfind : chain.find? key = some (ref, value)) : ref.level < chain.length := by
  induction chain with
  | nil => simp at hfind
  | cons frame outer ih =>
      rw [find?_cons] at hfind
      cases hframe : frame.find? key with
      | some found =>
          simp only [hframe, Option.some.injEq, Prod.mk.injEq] at hfind
          obtain ⟨rfl, -⟩ := hfind
          simp
      | none =>
          simp only [hframe] at hfind
          have hlt := ih hfind
          simp only [List.length_cons]
          omega

/-- Looking a key up and following the name it resolved to is the same thing. -/
theorem get?_of_find? {chain : Chain κ β γ} {key : κ} {ref : Ref κ} {value : β}
    (hfind : chain.find? key = some (ref, value)) : chain.get? ref = some value := by
  induction chain with
  | nil => simp at hfind
  | cons frame outer ih =>
      rw [find?_cons] at hfind
      cases hframe : frame.find? key with
      | some found =>
          simp only [hframe, Option.some.injEq, Prod.mk.injEq] at hfind
          obtain ⟨rfl, rfl⟩ := hfind
          simp [get?, hframe]
      | none =>
          simp only [hframe] at hfind
          have hne : ref.level ≠ outer.length := Nat.ne_of_lt (find?_level_lt hfind)
          simpa [get?, hne] using ih hfind

theorem resolve_eq_some {chain : Chain κ β γ} {key : κ} {ref : Ref κ} :
    chain.resolve key = some ref ↔ ∃ value, chain.find? key = some (ref, value) := by
  simp [resolve]

/-- Resolution sees the keys of the frames and nothing else. -/
theorem resolve_eq_of_shape_eq {β' γ' : Type} {first : Chain κ β γ} {second : Chain κ β' γ'}
    (hshape : first.shape = second.shape) (key : κ) :
    first.resolve key = second.resolve key := by
  induction first generalizing second with
  | nil =>
      cases second with
      | nil => rfl
      | cons frame outer => simp [shape] at hshape
  | cons frame outer ih =>
      cases second with
      | nil => simp [shape] at hshape
      | cons frame' outer' =>
          simp only [shape, List.map_cons, List.cons.injEq] at hshape
          have hlength : outer.length = outer'.length := by
            simpa using congrArg List.length hshape.2
          have hsome := frame.find?_isSome_iff key
          rw [hshape.1, ← Frame.find?_isSome_iff] at hsome
          have hrest := ih hshape.2
          simp only [resolve, find?_cons] at hrest ⊢
          cases hfirst : frame.find? key with
          | some value =>
              obtain ⟨value', hsecond⟩ := Option.isSome_iff_exists.mp (hsome.mp (by simp [hfirst]))
              simp [hsecond, hlength]
          | none =>
              have hsecond : frame'.find? key = none := by
                rw [← Option.not_isSome_iff_eq_none, ← hsome]
                simp [hfirst]
              simpa [hsecond] using hrest

/-- All bound keys, the newest first. -/
def names (chain : Chain κ β γ) : List κ :=
  chain.shape.flatten

omit [DecidableEq κ] in
@[simp] theorem names_push (info : γ) (chain : Chain κ β γ) :
    names (⟨[], info⟩ :: chain) = names chain := rfl

omit [DecidableEq κ] in
@[simp] theorem names_define (frame : Frame κ β γ) (outer : Chain κ β γ) (key : κ) (value : β) :
    names (frame.define key value :: outer) = key :: names (frame :: outer) := rfl

theorem resolve_isSome_iff (chain : Chain κ β γ) (key : κ) :
    (chain.resolve key).isSome ↔ key ∈ names chain := by
  induction chain with
  | nil => simp [resolve, names, shape]
  | cons frame outer ih =>
      simp only [resolve, names, shape, find?_cons, List.map_cons, List.flatten_cons,
        List.mem_append] at ih ⊢
      rw [← ih, ← Frame.find?_isSome_iff]
      cases frame.find? key <;> simp

/-- `Extends base extended added`: `extended` is `base` with frames opened and
fresh keys defined in the innermost frame, `added` of them, the newest first. -/
inductive Extends (base : Chain κ β γ) : Chain κ β γ → List κ → Prop
  | refl : Extends base base []
  | define {frame : Frame κ β γ} {outer : Chain κ β γ} {added : List κ} (key : κ) (value : β) :
      Extends base (frame :: outer) added → key ∉ frame.keys →
        Extends base (frame.define key value :: outer) (key :: added)
  | push {extended : Chain κ β γ} {added : List κ} (info : γ) :
      Extends base extended added → Extends base (⟨[], info⟩ :: extended) added

namespace Extends

variable {base extended : Chain κ β γ} {added : List κ}

omit [DecidableEq κ] in
theorem names_eq (hextends : Extends base extended added) :
    names extended = added ++ names base := by
  induction hextends with
  | refl => rfl
  | define key value _ _ ih => rw [names_define, ih, List.cons_append]
  | push info _ ih => rw [names_push, ih]

omit [DecidableEq κ] in
theorem length_le (hextends : Extends base extended added) :
    base.length ≤ extended.length := by
  induction hextends with
  | refl => exact Nat.le_refl _
  | define key value _ _ ih => exact ih
  | push info _ ih => exact Nat.le_succ_of_le ih

omit [DecidableEq κ] in
theorem trans {last : Chain κ β γ} {more : List κ} (hfirst : Extends base extended added)
    (hsecond : Extends extended last more) : Extends base last (more ++ added) := by
  induction hsecond with
  | refl => exact hfirst
  | define key value _ hfresh ih => exact .define key value ih hfresh
  | push info _ ih => exact .push info ih

theorem get?_isSome (hextends : Extends base extended added) {ref : Ref κ}
    (hlevel : ref.level < base.length) (hbound : (base.get? ref).isSome) :
    (extended.get? ref).isSome := by
  induction hextends with
  | refl => exact hbound
  | @define frame outer added key value _ _ ih =>
      by_cases heq : ref.level = outer.length
      · simp only [get?, heq, if_true, Frame.find?_define] at ih ⊢
        split
        · rfl
        · exact ih
      · simpa only [get?, heq, if_false] using ih
  | @push extended added info hextends ih =>
      have hne : ref.level ≠ extended.length := by
        have hle := hextends.length_le
        omega
      simpa [get?, hne] using ih

/-- A name keeps its binding through an extension unless it was bound again. -/
theorem resolve_eq_iff (hextends : Extends base extended added) {key : κ} {ref : Ref κ}
    (hresolve : base.resolve key = some ref) :
    extended.resolve key = some ref ↔ key ∉ added := by
  obtain ⟨value, hfind⟩ := resolve_eq_some.mp hresolve
  have hlevel := find?_level_lt hfind
  have hbound : (base.get? ref).isSome := by simp [get?_of_find? hfind]
  induction hextends with
  | refl => simp [hresolve]
  | @define frame outer added defined value hextends hfresh ih =>
      by_cases heq : defined = key
      · have hne : (⟨outer.length, key⟩ : Ref κ) ≠ ref := by
          rintro rfl
          have hstill := hextends.get?_isSome hlevel hbound
          simp only [get?, if_true, Frame.find?_isSome_iff] at hstill
          exact hfresh (heq ▸ hstill)
        simpa [resolve, find?_cons, heq] using hne
      · have hsame : resolve (frame.define defined value :: outer) key =
            resolve (frame :: outer) key := by
          simp [resolve, find?_cons, heq]
        rw [hsame]
        exact ih.trans (by simp [Ne.symm heq])
  | push info hextends ih => exact ih

end Extends

end Chain

end Library
