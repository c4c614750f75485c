import ThermalLabel.LinePrint.Line
import ThermalLabel.Proofs.LinePrint.Ties
import ThermalLabel.Proofs.Number.Order
/-!
# Lines do not depend on the order of ties

Items of the same height are equally far from every line. So the second of them joins the line that
the first one joined or opened, and visiting them the other way round gives the same lines but for
the order in which their items joined.
-/

namespace ThermalLabel.LinePrint

open Binary64

variable {a b : Item} {line line' : Line} {lines lines' : List Line}

namespace Line

/-- Lines at the same height with the same items, in whatever order these joined. -/
structure Like (line line' : Line) : Prop where
  y : Ties line.y line'.y
  items : line.items.Perm line'.items

theorem Like.trans {line'' : Line} (h : Like line line') (h' : Like line' line'') :
    Like line line'' :=
  ⟨h.y.trans h'.y, h.items.trans h'.items⟩

theorem Like.symm (h : Like line line') : Like line' line := ⟨h.y.symm, h.items.symm⟩

theorem Like.add (h : Like line line') (a : Item) : Like (line.add a) (line'.add a) :=
  ⟨h.y, h.items.append_right [a]⟩

theorem Like.add_swap (h : Like line line') (a b : Item) :
    Like ((line.add a).add b) ((line'.add b).add a) := by
  refine ⟨h.y, ?_⟩
  change (line.items ++ [a] ++ [b]).Perm (line'.items ++ [b] ++ [a])
  rw [List.append_assoc, List.append_assoc]
  exact h.items.append (List.Perm.swap b a [])

theorem distance_congr (hline : Ties line.y line'.y) (hitem : Ties a.y b.y) :
    line.distance a = line'.distance b :=
  hline.abs_sub_congr hitem

end Line

/-! ## The nearest line -/

/-- Where the nearest line is depends on heights alone. -/
theorem nearestFrom_congr (hlines : List.Forall₂ (fun l l' => Ties l.y l'.y) lines lines')
    (hitem : Ties a.y b.y) (i : Nat) (best : Option (Nat × Float)) :
    nearestFrom a i best lines = nearestFrom b i best lines' := by
  induction hlines generalizing i best with
  | nil => rfl
  | cons hline hlines ih =>
    have hdistance := Line.distance_congr hline hitem
    simp only [nearestFrom, hdistance, ih]

theorem nearestFrom_some_ne_none (i : Nat) (best : Nat × Float) :
    nearestFrom a i (some best) lines ≠ none := by
  induction lines generalizing i best with
  | nil => exact Option.some_ne_none _
  | cons line lines ih =>
    rw [nearestFrom]
    split <;> exact ih _ _

theorem far_of_nearestFrom {i : Nat} (h : nearestFrom a i none lines = none) :
    ∀ line ∈ lines, ¬ line.distance a < lineDistance := by
  induction lines generalizing i with
  | nil => exact fun _ hline => absurd hline List.not_mem_nil
  | cons line lines ih =>
    rw [nearestFrom] at h
    by_cases hclose : line.distance a < lineDistance
    · simp only [hclose, decide_true, Bool.and_true, if_true] at h
      exact absurd h (nearestFrom_some_ne_none _ _)
    · simp only [hclose, decide_false, Bool.false_and] at h
      exact List.forall_mem_cons.2 ⟨hclose, ih h⟩

theorem nearestFrom_append (h : ∀ line ∈ lines, ¬ line.distance a < lineDistance) (i : Nat)
    (best : Option (Nat × Float)) (rest : List Line) :
    nearestFrom a i best (lines ++ rest) = nearestFrom a (i + lines.length) best rest := by
  induction lines generalizing i with
  | nil => rfl
  | cons line lines ih =>
    obtain ⟨hline, hlines⟩ := List.forall_mem_cons.1 h
    simp only [List.cons_append, nearestFrom, hline, decide_false, Bool.false_and]
    rw [if_neg Bool.false_ne_true, ih hlines, List.length_cons, Nat.add_assoc, Nat.add_comm 1]

/-! ## Exchanging two items -/

theorem forall₂_modify {α : Type} {R : α → α → Prop} {xs ys : List α} {f g : α → α}
    (h : List.Forall₂ R xs ys) (hfg : ∀ x y, R x y → R (f x) (g y)) (i : Nat) :
    List.Forall₂ R (xs.modify i f) (ys.modify i g) := by
  induction h generalizing i with
  | nil => simp
  | cons hxy h ih =>
    cases i with
    | zero => exact .cons (hfg _ _ hxy) h
    | succ i => exact .cons hxy (ih i)

theorem modify_length_append {α : Type} (f : α → α) (xs : List α) (a : α) :
    (xs ++ [a]).modify xs.length f = xs ++ [f a] := by
  induction xs with
  | nil => rfl
  | cons x xs ih => exact congrArg (x :: ·) ih

def Alike (lines lines' : List Line) : Prop := List.Forall₂ Line.Like lines lines'

namespace Alike

theorem ties (h : Alike lines lines') : List.Forall₂ (fun l l' => Ties l.y l'.y) lines lines' :=
  h.imp fun _ _ hlike => hlike.y

theorem symm (h : Alike lines lines') : Alike lines' lines :=
  List.Forall₂.flip (h.imp fun _ _ hlike => hlike.symm)

theorem trans {lines'' : List Line} (h : Alike lines lines') (h' : Alike lines' lines'') :
    Alike lines lines'' := by
  induction h generalizing lines'' with
  | nil => exact h'
  | cons hline h ih =>
    cases h' with
    | cons hline' h' => exact .cons (hline.trans hline') (ih h')

theorem refl_left (h : Alike lines lines') : Alike lines lines := h.trans h.symm

theorem append (h : Alike lines lines') (hline : Line.Like line line') :
    Alike (lines ++ [line]) (lines' ++ [line']) :=
  List.rel_append h (.cons hline .nil)

end Alike

theorem addItem_of_some {i : Nat} (h : nearestFrom a 0 none lines = some i) :
    addItem lines a = lines.modify i (·.add a) := by
  rw [addItem, h]

theorem addItem_of_none (h : nearestFrom a 0 none lines = none) :
    addItem lines a = lines ++ [⟨a.y, [a]⟩] := by
  rw [addItem, h]

/-- An item joins the line that the one before it joined, if the two tie. -/
theorem addItem_addItem_of_some (hlines : Alike lines lines) (hab : Ties a.y b.y)
    {i : Nat} (h : nearestFrom a 0 none lines = some i) :
    addItem (addItem lines a) b = lines.modify i fun line => (line.add a).add b := by
  have hkept : List.Forall₂ (fun l l' => Ties l.y l'.y) lines (lines.modify i (·.add a)) := by
    nth_rewrite 1 [← List.modify_id i lines]
    apply forall₂_modify hlines.ties
    exact fun _ _ hties => hties
  rw [addItem_of_some h, addItem_of_some ((nearestFrom_congr hkept hab 0 none).symm.trans h),
    List.modify_modify_eq]
  rfl

/-- An item joins the line that the one before it opened, if the two tie. -/
theorem addItem_addItem_of_none (hlines : Alike lines lines) (hab : Ties a.y b.y)
    (h : nearestFrom a 0 none lines = none) :
    addItem (addItem lines a) b = lines ++ [⟨a.y, [a, b]⟩] := by
  have hfar : ∀ line ∈ lines, ¬ line.distance b < lineDistance := by
    apply far_of_nearestFrom
    exact (nearestFrom_congr hlines.ties hab 0 none).symm.trans h
  have hclose : Line.distance ⟨a.y, [a]⟩ b < lineDistance := by
    rw [Line.distance, hab.abs_sub_eq_zero]
    decide
  have hnearest : nearestFrom b 0 none (lines ++ [⟨a.y, [a]⟩]) = some lines.length := by
    rw [nearestFrom_append hfar, nearestFrom]
    simp [hclose, nearestFrom]
  rw [addItem_of_none h, addItem_of_some hnearest, modify_length_append]
  rfl

/-- Two items that tie may be added the other way round. -/
theorem like_addItem_swap (hab : Ties a.y b.y) (hlines : Alike lines lines') :
    Alike (addItem (addItem lines a) b) (addItem (addItem lines' b) a) := by
  have hleft := hlines.refl_left
  have hright := hlines.symm.refl_left
  have hsame := nearestFrom_congr hlines.ties hab 0 none
  cases h : nearestFrom a 0 none lines with
  | some i =>
    rw [addItem_addItem_of_some hleft hab h,
      addItem_addItem_of_some hright hab.symm (hsame.symm.trans h)]
    exact forall₂_modify hlines (fun _ _ hlike => hlike.add_swap a b) i
  | none =>
    rw [addItem_addItem_of_none hleft hab h,
      addItem_addItem_of_none hright hab.symm (hsame.symm.trans h)]
    exact hlines.append ⟨hab, List.Perm.swap b a []⟩

theorem like_addItem (ha : a.y.isFinite = true) (hlines : Alike lines lines') :
    Alike (addItem lines a) (addItem lines' a) := by
  have hsame := nearestFrom_congr hlines.ties (ties_refl ha) 0 none
  cases h : nearestFrom a 0 none lines with
  | some i =>
    rw [addItem_of_some h, addItem_of_some (hsame.symm.trans h)]
    exact forall₂_modify hlines (fun _ _ hlike => hlike.add a) i
  | none =>
    rw [addItem_of_none h, addItem_of_none (hsame.symm.trans h)]
    exact hlines.append ⟨ties_refl ha, List.Perm.refl _⟩

/-- Items visited in orders that differ by ties are gathered into lines that are alike. -/
theorem alike_foldl_addItem {items items' : List Item}
    (h : Reordered (fun a b => Ties a.y b.y) items items') :
    Alike (items.foldl addItem []) (items'.foldl addItem []) := by
  apply h.foldl (L := Alike)
  · exact fun _ _ hlines => hlines.refl_left
  · exact fun _ _ _ hlines hlines' => hlines.trans hlines'
  · exact fun _ ha _ _ hlines => like_addItem ha.left hlines
  · exact fun _ _ hab _ _ hlines => like_addItem_swap hab hlines
  · exact List.Forall₂.nil

/-! ## What a line holds -/

theorem exists_of_mem_modify {α : Type} {f : α → α} {xs : List α} {i : Nat} {x : α}
    (h : x ∈ xs.modify i f) : x ∈ xs ∨ ∃ y ∈ xs, x = f y := by
  induction xs generalizing i with
  | nil => simp at h
  | cons y xs ih =>
    cases i with
    | zero =>
      rcases List.mem_cons.1 h with rfl | hx
      · exact Or.inr ⟨y, List.mem_cons_self, rfl⟩
      · exact Or.inl (List.mem_cons_of_mem y hx)
    | succ i =>
      rcases List.mem_cons.1 h with rfl | hx
      · exact Or.inl List.mem_cons_self
      · rcases ih hx with hold | ⟨z, hz, rfl⟩
        · exact Or.inl (List.mem_cons_of_mem y hold)
        · exact Or.inr ⟨z, List.mem_cons_of_mem y hz, rfl⟩

theorem sublist_of_mem_foldl_addItem (items : List Item) :
    ∀ line ∈ items.foldl addItem [], line.items.Sublist items := by
  -- Items join at the end of a line, so the induction is on the last one visited.
  induction items using List.reverseRecOn with
  | nil => exact fun line hline => absurd hline List.not_mem_nil
  | append_singleton items a ih =>
    intro line hline
    have hkept {old : Line} (hold : old ∈ items.foldl addItem []) :
        old.items.Sublist (items ++ [a]) := (ih old hold).trans (List.sublist_append_left items [a])
    rw [List.foldl_append, List.foldl_cons, List.foldl_nil] at hline
    cases h : nearestFrom a 0 none (items.foldl addItem []) with
    | some i =>
      rw [addItem_of_some h] at hline
      rcases exists_of_mem_modify hline with hold | ⟨old, hold, rfl⟩
      · exact hkept hold
      · exact (ih old hold).append_right [a]
    | none =>
      rw [addItem_of_none h] at hline
      rcases List.mem_append.1 hline with hold | hnew
      · exact hkept hold
      · rw [List.mem_singleton.1 hnew]
        exact List.sublist_append_right items [a]

end ThermalLabel.LinePrint
