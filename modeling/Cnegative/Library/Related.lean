import Mathlib.Data.List.Forall2
import Mathlib.Data.Option.Defs

namespace Library

/-! Searches in two lists whose elements are related one by one. -/

variable {α β γ δ : Type} {related : α → β → Prop}

theorem mapM_isSome {transform : α → Option β} {items : List α}
    (hall : ∀ item ∈ items, ∃ image, transform item = some image) :
    ∃ images, items.mapM transform = some images := by
  induction items with
  | nil => exact ⟨[], rfl⟩
  | cons item rest ih =>
      obtain ⟨image, himage⟩ := hall item (by simp)
      obtain ⟨images, himages⟩ := ih fun other hother => hall other (by simp [hother])
      exact ⟨image :: images, by simp [himage, himages]⟩

theorem forall₂_of_mapM {transform : α → Option β} {items : List α} {images : List β}
    (hmap : items.mapM transform = some images)
    (hrelated : ∀ item ∈ items, ∀ image, transform item = some image → related item image) :
    List.Forall₂ related items images := by
  induction items generalizing images with
  | nil =>
      simp only [List.mapM_nil, Option.pure_def, Option.some.injEq] at hmap
      rw [← hmap]
      exact .nil
  | cons item rest ih =>
      simp only [List.mapM_cons, Option.bind_eq_bind, Option.bind_eq_some_iff, Option.pure_def,
        Option.some.injEq] at hmap
      obtain ⟨image, himage, others, hothers, rfl⟩ := hmap
      exact .cons (hrelated item (by simp) image himage)
        (ih hothers fun other hother => hrelated other (by simp [hother]))

theorem mem_of_mapM {transform : α → Option β} {items : List α} {images : List β}
    (hmap : items.mapM transform = some images) {image : β} (himage : image ∈ images) :
    ∃ item ∈ items, transform item = some image := by
  induction items generalizing images with
  | nil =>
      simp only [List.mapM_nil, Option.pure_def, Option.some.injEq] at hmap
      simp [← hmap] at himage
  | cons item rest ih =>
      simp only [List.mapM_cons, Option.bind_eq_bind, Option.bind_eq_some_iff, Option.pure_def,
        Option.some.injEq] at hmap
      obtain ⟨first, hfirst, others, hothers, rfl⟩ := hmap
      rcases List.mem_cons.mp himage with rfl | himage
      · exact ⟨item, by simp, hfirst⟩
      · obtain ⟨other, hother, heq⟩ := ih hothers himage
        exact ⟨other, List.mem_cons_of_mem _ hother, heq⟩

/-- Transforming a second time changes nothing where it changes no image. -/
theorem mapM_settled {transform : α → Option α} {items images : List α}
    (hsettled : ∀ item image, transform item = some image → transform image = some image)
    (hmap : items.mapM transform = some images) : images.mapM transform = some images := by
  have hall : ∀ image ∈ images, transform image = some image := by
    intro image himage
    obtain ⟨item, -, hitem⟩ := mem_of_mapM hmap himage
    exact hsettled item image hitem
  clear hmap
  induction images with
  | nil => rfl
  | cons image rest ih =>
      have hrest := ih fun other hother => hall other (List.mem_cons_of_mem _ hother)
      simp [hall image List.mem_cons_self, hrest]

theorem find?_related {items : List α} {images : List β} {test : α → Bool} {test' : β → Bool}
    (hrelated : List.Forall₂ related items images)
    (htest : ∀ item image, related item image → test' image = test item) :
    Option.Rel related (items.find? test) (images.find? test') := by
  induction hrelated with
  | nil => exact .none
  | @cons item image items images hhead _ ih =>
      rw [List.find?_cons, List.find?_cons, htest item image hhead]
      cases test item with
      | true => exact .some hhead
      | false => exact ih

theorem filter_related {items : List α} {images : List β} {test : α → Bool} {test' : β → Bool}
    (hrelated : List.Forall₂ related items images)
    (htest : ∀ item image, related item image → test' image = test item) :
    List.Forall₂ related (items.filter test) (images.filter test') := by
  induction hrelated with
  | nil => exact .nil
  | @cons item image items images hhead _ ih =>
      rw [List.filter_cons, List.filter_cons, htest item image hhead]
      cases test item with
      | true => exact .cons hhead ih
      | false => exact ih

theorem findSome?_related {items : List α} {images : List β} {found : γ → δ → Prop}
    {search : α → Option γ} {search' : β → Option δ}
    (hrelated : List.Forall₂ related items images)
    (hsearch : ∀ item image, related item image →
      Option.Rel found (search item) (search' image)) :
    Option.Rel found (items.findSome? search) (images.findSome? search') := by
  induction hrelated with
  | nil => exact .none
  | @cons item image items images hhead _ ih =>
      rw [List.findSome?_cons, List.findSome?_cons]
      have hstep := hsearch item image hhead
      generalize search item = first at hstep ⊢
      generalize search' image = second at hstep ⊢
      cases hstep with
      | none => exact ih
      | some hfound => exact .some hfound

end Library
