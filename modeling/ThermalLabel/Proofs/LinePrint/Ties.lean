import Mathlib
/-!
# Lists that differ in the order of ties

Two arrangements of the same items, each in order, differ only in how items stand that tie. One
becomes the other by exchanging neighbours that tie, so what such an exchange does not change is the
same for both.
-/

namespace ThermalLabel

variable {α β : Type} {tied r : α → α → Prop} {xs ys : List α} {a : α}

/-- One list becomes the other by exchanging neighbours that tie. -/
inductive Reordered (tied : α → α → Prop) : List α → List α → Prop where
  | nil : Reordered tied [] []
  | cons {a : α} {xs ys : List α} (ha : tied a a) (h : Reordered tied xs ys) :
    Reordered tied (a :: xs) (a :: ys)
  | swap {a b : α} {xs ys : List α} (hab : tied a b) (h : Reordered tied xs ys) :
    Reordered tied (a :: b :: xs) (b :: a :: ys)
  | trans {xs ys zs : List α} (h : Reordered tied xs ys) (h' : Reordered tied ys zs) :
    Reordered tied xs zs

theorem reordered_refl (h : ∀ a ∈ xs, tied a a) : Reordered tied xs xs := by
  induction xs with
  | nil => exact .nil
  | cons a xs ih =>
    exact .cons (h a List.mem_cons_self) (ih fun b hb => h b (List.mem_cons_of_mem a hb))

theorem reordered_past (ha : tied a a) (hpast : ∀ x ∈ xs, tied a x)
    (hself : ∀ x ∈ xs ++ ys, tied x x) : Reordered tied (a :: (xs ++ ys)) (xs ++ a :: ys) := by
  induction xs with
  | nil => exact .cons ha (reordered_refl hself)
  | cons x xs ih =>
    have hselfRest : ∀ y ∈ xs ++ ys, tied y y := fun y hy => hself y (List.mem_cons_of_mem x hy)
    have hpastRest : ∀ y ∈ xs, tied a y := fun y hy => hpast y (List.mem_cons_of_mem x hy)
    have hexchanged : Reordered tied (a :: x :: (xs ++ ys)) (x :: a :: (xs ++ ys)) :=
      .swap (hpast x List.mem_cons_self) (reordered_refl hselfRest)
    exact .trans hexchanged (.cons (hself x List.mem_cons_self) (ih hpastRest hselfRest))

theorem reordered_of_pairwise (hperm : xs.Perm ys) (hxs : xs.Pairwise r) (hys : ys.Pairwise r)
    (hself : ∀ a ∈ xs, tied a a)
    (htied : ∀ a ∈ xs, ∀ b ∈ xs, r a b → r b a → tied a b) : Reordered tied xs ys := by
  induction xs generalizing ys with
  | nil =>
    rw [List.nil_perm.1 hperm]
    exact .nil
  | cons a xs ih =>
    obtain ⟨before, after, rfl⟩ := List.append_of_mem (hperm.mem_iff.1 List.mem_cons_self)
    have hrest : xs.Perm (before ++ after) :=
      List.Perm.cons_inv (hperm.trans List.perm_middle)
    obtain ⟨ha, hxs⟩ := List.pairwise_cons.1 hxs
    have hselfRest : ∀ x ∈ xs, tied x x := fun x hx => hself x (List.mem_cons_of_mem a hx)
    have hmem : ∀ x ∈ before, x ∈ xs := fun x hx => hrest.mem_iff.2 (List.mem_append_left _ hx)
    -- What stands before the item in one arrangement follows it in the other.
    have hpast : ∀ x ∈ before, tied a x := by
      intro x hx
      have hxa : r x a := (List.pairwise_append.1 hys).2.2 x hx a List.mem_cons_self
      exact htied a List.mem_cons_self x (List.mem_cons_of_mem a (hmem x hx)) (ha x (hmem x hx)) hxa
    have hys' : (before ++ after).Pairwise r :=
      hys.sublist (List.Sublist.append_left (List.sublist_cons_self a after) before)
    have hih := ih hrest hxs hys' hselfRest fun x hx y hy =>
      htied x (List.mem_cons_of_mem a hx) y (List.mem_cons_of_mem a hy)
    have haa := hself a List.mem_cons_self
    refine .trans (.cons haa hih) (reordered_past haa hpast ?_)
    exact fun x hx => hselfRest x (hrest.mem_iff.2 hx)

theorem Reordered.map_eq {f : α → β} (h : Reordered tied xs ys)
    (hf : ∀ a b, tied a b → f a = f b) : xs.map f = ys.map f := by
  induction h with
  | nil => rfl
  | cons ha h ih => rw [List.map_cons, List.map_cons, ih]
  | swap hab h ih => rw [List.map_cons, List.map_cons, List.map_cons, List.map_cons, ih, hf _ _ hab]
  | trans h h' ih ih' => exact ih.trans ih'

/-- A fold does not tell the lists apart that cannot tell an exchange of ties. -/
theorem Reordered.foldl {L : β → β → Prop} {f : β → α → β} (h : Reordered tied xs ys)
    (hrefl : ∀ x y, L x y → L x x) (htrans : ∀ x y z, L x y → L y z → L x z)
    (hstep : ∀ a, tied a a → ∀ x y, L x y → L (f x a) (f y a))
    (hswap : ∀ a b, tied a b → ∀ x y, L x y → L (f (f x a) b) (f (f y b) a))
    {x y : β} (hxy : L x y) : L (xs.foldl f x) (ys.foldl f y) := by
  induction h generalizing x y with
  | nil => exact hxy
  | cons ha h ih => exact ih (hstep _ ha x y hxy)
  | swap hab h ih => exact ih (hswap _ _ hab x y hxy)
  | trans h h' ih ih' => exact htrans _ _ _ (ih (hrefl x y hxy)) (ih' hxy)

end ThermalLabel
