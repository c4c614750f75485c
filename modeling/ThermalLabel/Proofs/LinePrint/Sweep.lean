import Mathlib
import ThermalLabel.Proofs.LinePrint.OrderIndependent
import ThermalLabel.Proofs.Number.Difference
/-!
# Gathering lines is a sweep

Every item joins one line, whatever the heights. Where they are finite, lines are opened at least a
line's distance below each other and items are visited from top to bottom, so that an item can only
be close to the line opened last. So the search for the nearest line is a sweep that looks at that
one alone.
-/

namespace ThermalLabel.LinePrint

open Binary64

variable {a : Item} {line : Line} {lines : List Line} {items : List Item}

/-- An item added to the last of the lines above it, if that is close enough. -/
def addToLast (lines : List Line) (item : Item) : List Line :=
  match lines.getLast? with
  | some line =>
    if line.distance item < lineDistance then lines.dropLast ++ [line.add item]
    else lines ++ [⟨item.y, [item]⟩]
  | none => [⟨item.y, [item]⟩]

/-- Items gathered into lines, where each is compared with the line opened last. -/
def sweptLines (items : List Item) : List Line := (visited items).foldl addToLast []

/-! ## Every item is on one line -/

theorem lt_of_nearestFrom {i j : Nat} {best : Option (Nat × Float)}
    (h : nearestFrom a i best lines = some j) :
    (∃ d, best = some (j, d)) ∨ j < i + lines.length := by
  induction lines generalizing i best with
  | nil =>
    obtain ⟨⟨k, d⟩, hbest, hk⟩ := Option.map_eq_some_iff.1 h
    cases hk
    exact .inl ⟨d, hbest⟩
  | cons line lines ih =>
    simp only [nearestFrom] at h
    rw [List.length_cons]
    obtain ⟨d, hd⟩ | hlt := ih h
    · obtain ⟨-, hd⟩ | ⟨-, hd⟩ := ite_eq_iff.1 hd
      · cases hd
        exact .inr (by omega)
      · exact .inl ⟨d, hd⟩
    · exact .inr (by omega)

theorem flatMap_modify_add_perm {i : Nat} (h : i < lines.length) :
    ((lines.modify i (·.add a)).flatMap Line.items).Perm (lines.flatMap Line.items ++ [a]) := by
  induction lines generalizing i with
  | nil => cases h
  | cons line lines ih =>
    cases i with
    | zero =>
      change (line.items ++ [a] ++ lines.flatMap Line.items).Perm
        (line.items ++ lines.flatMap Line.items ++ [a])
      rw [List.append_assoc, List.append_assoc]
      exact List.perm_append_comm.append_left line.items
    | succ i =>
      change (line.items ++ (lines.modify i (·.add a)).flatMap Line.items).Perm
        (line.items ++ lines.flatMap Line.items ++ [a])
      rw [List.append_assoc]
      exact (ih (Nat.lt_of_succ_lt_succ h)).append_left line.items

theorem flatMap_addItem_perm (lines : List Line) (a : Item) :
    ((addItem lines a).flatMap Line.items).Perm (lines.flatMap Line.items ++ [a]) := by
  cases h : nearestFrom a 0 none lines with
  | some i =>
    rw [addItem_of_some h]
    obtain ⟨d, hd⟩ | hlt := lt_of_nearestFrom h
    · cases hd
    · exact flatMap_modify_add_perm (by simpa using hlt)
  | none =>
    rw [addItem_of_none h, List.flatMap_append]
    exact List.Perm.refl _

theorem flatMap_foldl_addItem_perm (items : List Item) (lines : List Line) :
    ((items.foldl addItem lines).flatMap Line.items).Perm (lines.flatMap Line.items ++ items) := by
  induction items generalizing lines with
  | nil => simp
  | cons a items ih =>
    have hstep := (flatMap_addItem_perm lines a).append_right items
    rw [List.append_assoc, List.singleton_append] at hstep
    exact (ih (addItem lines a)).trans hstep

theorem flatMap_groupLines_perm (items : List Item) :
    ((groupLines items).flatMap Line.items).Perm items :=
  (flatMap_foldl_addItem_perm (visited items) []).trans (visited_perm items)

/-! ## Only the last line is close enough -/

theorem nearestFrom_of_far {init : List Line} (last : Line)
    (h : ∀ line ∈ init, ¬ line.distance a < lineDistance) :
    nearestFrom a 0 none (init ++ [last]) =
      if last.distance a < lineDistance then some init.length else none := by
  rw [nearestFrom_append h, nearestFrom, Nat.zero_add]
  by_cases hlast : last.distance a < lineDistance
  · simp [hlast, nearestFrom]
  · simp [hlast, nearestFrom]

theorem addItem_eq_addToLast (h : ∀ line ∈ lines.dropLast, ¬ line.distance a < lineDistance) :
    addItem lines a = addToLast lines a := by
  obtain rfl | ⟨init, last, rfl⟩ := lines.eq_nil_or_concat'
  · rfl
  · rw [List.dropLast_concat] at h
    have hnearest := nearestFrom_of_far last h
    rw [addToLast, List.getLast?_concat, List.dropLast_concat]
    by_cases hlast : last.distance a < lineDistance
    · rw [if_pos hlast] at hnearest
      simp only [addItem_of_some hnearest, modify_length_append, if_pos hlast]
    · rw [if_neg hlast] at hnearest
      simp only [addItem_of_none hnearest, if_neg hlast]

/-- The lines for the items visited so far. -/
structure Gathered (items : List Item) (lines : List Line) : Prop where
  flatMap_items : lines.flatMap Line.items = items
  spaced : lines.Pairwise fun above below =>
    valueOf above.y ≤ valueOf below.y ∧ ¬ (above.y - below.y).abs < lineDistance
  anchored : ∀ line ∈ lines, line.items.head?.map Item.y = some line.y
  close : ∀ line ∈ lines, ∀ a ∈ line.items, line.distance a < lineDistance

namespace Gathered

theorem mem_items (h : Gathered items lines) (hline : line ∈ lines) (ha : a ∈ line.items) :
    a ∈ items := by
  rw [← h.flatMap_items]
  exact List.mem_flatMap.2 ⟨line, hline, ha⟩

theorem exists_anchor (h : Gathered items lines) (hline : line ∈ lines) :
    ∃ b ∈ line.items, b.y = line.y := by
  obtain ⟨b, hb, hy⟩ := Option.map_eq_some_iff.1 (h.anchored line hline)
  exact ⟨b, List.mem_of_mem_head? hb, hy⟩

theorem isFinite_y (h : Gathered items lines) (hfinite : ∀ b ∈ items, b.y.isFinite = true)
    (hline : line ∈ lines) : line.y.isFinite = true := by
  obtain ⟨b, hb, hby⟩ := h.exists_anchor hline
  exact hby ▸ hfinite b (h.mem_items hline hb)

/-- A line above the last one is at least as far from an item below as it is from the last one. -/
theorem far (h : Gathered items lines) (hfinite : ∀ b ∈ items, b.y.isFinite = true)
    (ha : a.y.isFinite = true) (hbelow : ∀ b ∈ items, valueOf b.y ≤ valueOf a.y) :
    ∀ line ∈ lines.dropLast, ¬ line.distance a < lineDistance := by
  obtain rfl | ⟨init, last, rfl⟩ := lines.eq_nil_or_concat'
  · exact fun line hline => absurd hline List.not_mem_nil
  · rw [List.dropLast_concat]
    intro line hline hclose
    have hmem : line ∈ init ++ [last] := List.mem_append_left _ hline
    have hlast : last ∈ init ++ [last] := List.mem_append_right _ (List.mem_singleton_self last)
    obtain ⟨b, hb, hby⟩ := h.exists_anchor hlast
    have hlastAbove : valueOf last.y ≤ valueOf a.y := hby ▸ hbelow b (h.mem_items hlast hb)
    obtain ⟨hle, hfar⟩ := (List.pairwise_append.1 h.spaced).2.2 line hline last
      (List.mem_singleton_self last)
    exact hfar (abs_sub_lt_of_between (h.isFinite_y hfinite hmem) (h.isFinite_y hfinite hlast) ha
      (by decide) hle hlastAbove hclose)

theorem sublist_items (h : Gathered items lines) (hline : line ∈ lines) :
    line.items.Sublist items := by
  rw [← h.flatMap_items, List.flatMap_def]
  exact List.sublist_flatten_of_mem (List.mem_map_of_mem hline)

theorem anchor_le (h : Gathered items lines)
    (hordered : items.Pairwise fun a b => valueOf a.y ≤ valueOf b.y) (hline : line ∈ lines)
    (ha : a ∈ line.items) : valueOf line.y ≤ valueOf a.y := by
  obtain ⟨b, hb, hby⟩ := Option.map_eq_some_iff.1 (h.anchored line hline)
  obtain ⟨rest, hrest⟩ := List.head?_eq_some_iff.1 hb
  have hpairwise := hordered.sublist (h.sublist_items hline)
  rw [hrest] at ha hpairwise
  rw [← hby]
  obtain rfl | ha := List.mem_cons.1 ha
  · exact le_rfl
  · exact List.rel_of_pairwise_cons hpairwise ha

/-- What is on a line lies above all that is on the lines below. -/
theorem separated (h : Gathered items lines) (hfinite : ∀ b ∈ items, b.y.isFinite = true)
    (hordered : items.Pairwise fun a b => valueOf a.y ≤ valueOf b.y) :
    lines.Pairwise fun above below =>
      ∀ b ∈ above.items, ∀ a ∈ below.items, valueOf b.y < valueOf a.y := by
  refine h.spaced.imp_of_mem fun {above below} habove hbelow hspaced b hb a ha => ?_
  obtain ⟨hle, hfar⟩ := hspaced
  by_contra hnot
  have hbetween : valueOf below.y ≤ valueOf b.y :=
    (h.anchor_le hordered hbelow ha).trans (not_lt.1 hnot)
  exact hfar (abs_sub_lt_of_between (h.isFinite_y hfinite habove) (h.isFinite_y hfinite hbelow)
    (hfinite b (h.mem_items habove hb)) (by decide) hle hbetween (h.close above habove b hb))

/-- An item that is close to no line opens one. -/
theorem opened (h : Gathered items lines) (ha : a.y.isFinite = true)
    (hbelow : ∀ b ∈ items, valueOf b.y ≤ valueOf a.y)
    (hfar : ∀ line ∈ lines, ¬ line.distance a < lineDistance) :
    Gathered (items ++ [a]) (lines ++ [⟨a.y, [a]⟩]) where
  flatMap_items := by
    rw [List.flatMap_append, h.flatMap_items]
    rfl
  spaced := by
    refine List.pairwise_append.2 ⟨h.spaced, List.pairwise_singleton _ _, ?_⟩
    intro line hline below hmem
    rw [List.mem_singleton.1 hmem]
    obtain ⟨b, hb, hby⟩ := h.exists_anchor hline
    exact ⟨hby ▸ hbelow b (h.mem_items hline hb), hfar line hline⟩
  anchored := List.forall_mem_append.2 ⟨h.anchored, by simp⟩
  close := by
    have hself : Line.distance ⟨a.y, [a]⟩ a < lineDistance := by
      rw [Line.distance, (ties_refl ha).abs_sub_eq_zero]
      decide
    exact List.forall_mem_append.2 ⟨h.close, by simpa using hself⟩

/-- An item that is close to the last line joins it. -/
theorem joined {init : List Line} {last : Line} (h : Gathered items (init ++ [last]))
    (hclose : last.distance a < lineDistance) :
    Gathered (items ++ [a]) (init ++ [last.add a]) where
  flatMap_items := by
    rw [← h.flatMap_items, List.flatMap_append, List.flatMap_append, List.append_assoc]
    simp [Line.add]
  spaced := by
    obtain ⟨hinit, -, hacross⟩ := List.pairwise_append.1 h.spaced
    refine List.pairwise_append.2 ⟨hinit, List.pairwise_singleton _ _, ?_⟩
    intro line hline below hmem
    rw [List.mem_singleton.1 hmem]
    exact hacross line hline last (List.mem_singleton_self last)
  anchored := by
    obtain ⟨hinit, hlast⟩ := List.forall_mem_append.1 h.anchored
    obtain ⟨b, hb, hby⟩ := Option.map_eq_some_iff.1 (hlast last (List.mem_singleton_self last))
    refine List.forall_mem_append.2 ⟨hinit, ?_⟩
    intro line hline
    rw [List.mem_singleton.1 hline]
    change (last.items ++ [a]).head?.map Item.y = some last.y
    rw [List.head?_append, hb, ← hby]
    rfl
  close := by
    obtain ⟨hinit, hlast⟩ := List.forall_mem_append.1 h.close
    refine List.forall_mem_append.2 ⟨hinit, ?_⟩
    intro line hline b hb
    rw [List.mem_singleton.1 hline] at hb ⊢
    obtain hb | hb := List.mem_append.1 hb
    · exact hlast last (List.mem_singleton_self last) b hb
    · rw [List.mem_singleton.1 hb]
      exact hclose

/-- The lines after one more item, which lies below those before it. -/
theorem addToLast (h : Gathered items lines) (hfinite : ∀ b ∈ items, b.y.isFinite = true)
    (ha : a.y.isFinite = true) (hbelow : ∀ b ∈ items, valueOf b.y ≤ valueOf a.y) :
    Gathered (items ++ [a]) (addToLast lines a) := by
  have hfar := h.far hfinite ha hbelow
  obtain rfl | ⟨init, last, rfl⟩ := lines.eq_nil_or_concat'
  · exact h.opened ha hbelow fun line hline => absurd hline List.not_mem_nil
  · rw [List.dropLast_concat] at hfar
    simp only [LinePrint.addToLast, List.getLast?_concat, List.dropLast_concat]
    by_cases hlast : last.distance a < lineDistance
    · rw [if_pos hlast]
      exact h.joined hlast
    · rw [if_neg hlast]
      exact h.opened ha hbelow (List.forall_mem_append.2 ⟨hfar, by simpa using hlast⟩)

end Gathered

/-- Gathering items that are visited from top to bottom looks at the last line only. -/
theorem gathered_foldl (hfinite : ∀ a ∈ items, a.y.isFinite = true)
    (hordered : items.Pairwise fun a b => valueOf a.y ≤ valueOf b.y) :
    Gathered items (items.foldl addItem []) ∧
      items.foldl addItem [] = items.foldl addToLast [] := by
  -- The lines depend on the items visited before, so the induction is on the last one.
  induction items using List.reverseRecOn with
  | nil => exact ⟨⟨rfl, List.Pairwise.nil, by simp, by simp⟩, rfl⟩
  | append_singleton items a ih =>
    obtain ⟨hfinite, ha⟩ := List.forall_mem_append.1 hfinite
    obtain ⟨hordered, -, hbelow⟩ := List.pairwise_append.1 hordered
    have ha := ha a (List.mem_singleton_self a)
    have hbelow := fun b hb => hbelow b hb a (List.mem_singleton_self a)
    obtain ⟨hgathered, hsame⟩ := ih hfinite hordered
    have hstep := addItem_eq_addToLast (hgathered.far hfinite ha hbelow)
    rw [List.foldl_append, List.foldl_append, List.foldl_cons, List.foldl_nil, List.foldl_cons,
      List.foldl_nil, ← hsame, hstep]
    exact ⟨hgathered.addToLast hfinite ha hbelow, rfl⟩

/-! ## Lines of a list -/

/-- A line on which items of a list are gathered. -/
structure Clustered (items : List Item) (line : Line) : Prop where
  first : line.items.head?.map Item.y = some line.y
  least : ∀ a ∈ line.items, line.y ≤ a.y
  close : ∀ a ∈ line.items, line.distance a < lineDistance
  rising : line.items.Pairwise fun a b => a.y ≤ b.y
  ties : ∀ a ∈ line.items, line.items.filter (·.y == a.y) = items.filter (·.y == a.y)

theorem isFinite_of_mem_visited (h : ∀ a ∈ items, a.y.isFinite = true) :
    ∀ a ∈ visited items, a.y.isFinite = true :=
  fun a ha => h a ((visited_perm items).mem_iff.1 ha)

theorem pairwise_valueOf_visited (h : ∀ a ∈ items, a.y.isFinite = true) :
    (visited items).Pairwise fun a b => valueOf a.y ≤ valueOf b.y := by
  have hfinite := isFinite_of_mem_visited h
  refine (pairwise_visited h).imp_of_mem fun ha hb hab => ?_
  exact (orderKey_le_iff_valueOf_le (hfinite _ ha) (hfinite _ hb)).1 hab

/-- Visiting from top to bottom keeps items of the same height in their order. -/
theorem filter_visited (h : ∀ a ∈ items, a.y.isFinite = true) (ha : a ∈ items) :
    (visited items).filter (·.y == a.y) = items.filter (·.y == a.y) := by
  have hkey (b : Item) (hb : b ∈ items) :
      (b.y == a.y) = decide (orderKey b.y = orderKey a.y) := by
    rw [Bool.eq_iff_iff, decide_eq_true_eq]
    exact beq_iff_orderKey_eq (h b hb) (h a ha)
  rw [List.filter_congr hkey,
    List.filter_congr fun b hb => hkey b ((visited_perm items).mem_iff.1 hb), visited_eq h]
  exact filter_stableOrder (fun b : Item => orderKey b.y) _ items

/-- Items of the height of one on a line are on that line. -/
theorem Gathered.filter_items (h : Gathered items lines)
    (hfinite : ∀ b ∈ items, b.y.isFinite = true)
    (hordered : items.Pairwise fun a b => valueOf a.y ≤ valueOf b.y) (hline : line ∈ lines)
    (ha : a ∈ line.items) :
    line.items.filter (·.y == a.y) = items.filter (·.y == a.y) := by
  have hties (b : Item) (hb : b ∈ items) : (b.y == a.y) = true ↔ valueOf b.y = valueOf a.y :=
    beq_iff_valueOf_eq (ne_notANumber_of_isFinite (hfinite b hb))
      (ne_notANumber_of_isFinite (hfinite a (h.mem_items hline ha)))
  obtain ⟨above, below, hlines⟩ := List.append_of_mem hline
  have hseparated := h.separated hfinite hordered
  rw [hlines, List.pairwise_append, List.pairwise_cons] at hseparated
  obtain ⟨-, ⟨hbelow, -⟩, habove⟩ := hseparated
  have hnoneAbove : (above.flatMap Line.items).filter (·.y == a.y) = [] := by
    refine List.filter_eq_nil_iff.2 fun b hb htie => ?_
    obtain ⟨other, hother, hb⟩ := List.mem_flatMap.1 hb
    have hmem : other ∈ lines := hlines ▸ List.mem_append_left _ hother
    exact (habove other hother line List.mem_cons_self b hb a ha).ne
      ((hties b (h.mem_items hmem hb)).1 htie)
  have hnoneBelow : (below.flatMap Line.items).filter (·.y == a.y) = [] := by
    refine List.filter_eq_nil_iff.2 fun b hb htie => ?_
    obtain ⟨other, hother, hb⟩ := List.mem_flatMap.1 hb
    have hmem : other ∈ lines :=
      hlines ▸ List.mem_append_right _ (List.mem_cons_of_mem line hother)
    exact (hbelow other hother a ha b hb).ne' ((hties b (h.mem_items hmem hb)).1 htie)
  rw [← h.flatMap_items, hlines, List.flatMap_append, List.flatMap_cons, List.filter_append,
    List.filter_append, hnoneAbove, hnoneBelow, List.nil_append, List.append_nil]

theorem Gathered.clustered (h : Gathered (visited items) lines)
    (hfinite : ∀ a ∈ items, a.y.isFinite = true) (hline : line ∈ lines) :
    Clustered items line := by
  have hvisited := isFinite_of_mem_visited hfinite
  have hordered := pairwise_valueOf_visited hfinite
  have hnumber {a : Item} (ha : a ∈ line.items) : a.y.toModel.unpack ≠ .notANumber :=
    ne_notANumber_of_isFinite (hvisited a (h.mem_items hline ha))
  refine ⟨h.anchored line hline, fun a ha => ?_, h.close line hline, ?_, fun a ha => ?_⟩
  · rw [le_iff_valueOf_le (ne_notANumber_of_isFinite (h.isFinite_y hvisited hline)) (hnumber ha)]
    exact h.anchor_le hordered hline ha
  · refine (hordered.sublist (h.sublist_items hline)).imp_of_mem fun ha hb hab => ?_
    exact (le_iff_valueOf_le (hnumber ha) (hnumber hb)).2 hab
  · rw [h.filter_items hvisited hordered hline ha]
    exact filter_visited hfinite ((visited_perm items).mem_iff.1 (h.mem_items hline ha))

/-- Lines follow each other at a line's distance or more. -/
theorem Gathered.spaced_lines (h : Gathered items lines)
    (hfinite : ∀ b ∈ items, b.y.isFinite = true) :
    lines.Pairwise fun above below =>
      above.y < below.y ∧ lineDistance ≤ below.y - above.y := by
  refine h.spaced.imp_of_mem fun {above below} habove hbelow hspaced => ?_
  obtain ⟨hle, hfar⟩ := hspaced
  have haboveFinite := h.isFinite_y hfinite habove
  have hbelowFinite := h.isFinite_y hfinite hbelow
  refine ⟨?_, le_sub_of_not_abs_sub_lt haboveFinite hbelowFinite (by decide) hle hfar⟩
  rw [lt_iff_valueOf_lt (ne_notANumber_of_isFinite haboveFinite)
    (ne_notANumber_of_isFinite hbelowFinite)]
  refine hle.lt_of_ne fun heq => hfar ?_
  have hties : Ties above.y below.y := by
    refine ⟨haboveFinite, hbelowFinite, le_antisymm ?_ ?_⟩
    · exact (orderKey_le_iff_valueOf_le haboveFinite hbelowFinite).2 heq.le
    · exact (orderKey_le_iff_valueOf_le hbelowFinite haboveFinite).2 heq.ge
  rw [hties.abs_sub_eq_zero]
  decide

/-- Each item is on one line, once, wherever the items are. At finite heights the lines are those of
a sweep, from top to bottom and a line's distance apart. Each lies at its first item, which is its
highest, and holds items that are close to it, from top to bottom and in their order where they tie.
The search for the nearest line finds no line but the last. -/
theorem groupLines_eq_sweptLines (items : List Item) :
    ((groupLines items).flatMap Line.items).Perm items ∧
      ((∀ a ∈ items, a.y.isFinite = true) →
        groupLines items = sweptLines items ∧
        ((groupLines items).Pairwise fun above below =>
          above.y < below.y ∧ lineDistance ≤ below.y - above.y) ∧
        (∀ line ∈ groupLines items, Clustered items line) ∧
        ∀ before a after, visited items = before ++ a :: after →
          ∀ i, nearestFrom a 0 none (before.foldl addItem []) = some i →
            i + 1 = (before.foldl addItem []).length) := by
  refine ⟨flatMap_groupLines_perm items, fun hfinite => ?_⟩
  have hvisited := isFinite_of_mem_visited hfinite
  have hordered := pairwise_valueOf_visited hfinite
  obtain ⟨hgathered, hsame⟩ := gathered_foldl hvisited hordered
  refine ⟨hsame, hgathered.spaced_lines hvisited,
    fun line hline => hgathered.clustered hfinite hline, ?_⟩
  intro before a after hsplit i hnearest
  rw [hsplit] at hvisited hordered
  obtain ⟨hbefore, hrest⟩ := List.forall_mem_append.1 hvisited
  obtain ⟨hbeforeOrdered, -, hbelow⟩ := List.pairwise_append.1 hordered
  obtain ⟨hsofar, -⟩ := gathered_foldl hbefore hbeforeOrdered
  have hfar := hsofar.far hbefore (hrest a List.mem_cons_self)
    fun b hb => hbelow b hb a List.mem_cons_self
  obtain hnil | ⟨init, last, hconcat⟩ := (before.foldl addItem []).eq_nil_or_concat'
  · rw [hnil] at hnearest
    cases hnearest
  · rw [hconcat, List.dropLast_concat] at hfar
    rw [hconcat, nearestFrom_of_far last hfar] at hnearest
    obtain ⟨-, hlast⟩ | ⟨-, hnone⟩ := ite_eq_iff.1 hnearest
    · cases hlast
      rw [hconcat, List.length_append]
      rfl
    · cases hnone

/-- Items at the bounds of their lines, out of order, two of them at zeros of different signs. -/
def closeItems : List Item :=
  [⟨29.9, 0, "Cake"⟩, ⟨0.0, 4, "Tea"⟩, ⟨15.0, 0, "Milk"⟩, ⟨14.9, 8, "(hot)"⟩, ⟨-0.0, 0, "2"⟩]

theorem closeItems_swept :
    (∀ a ∈ closeItems, a.y.isFinite = true) ∧
      groupLines closeItems = sweptLines closeItems ∧
      (∀ line ∈ groupLines closeItems, Clustered closeItems line) ∧
      (groupLines closeItems).map (fun line => (line.y, line.items.map Item.content)) =
        [(0.0, [.plain "Tea", .plain "2", .plain "(hot)"]),
          (15.0, [.plain "Milk", .plain "Cake"])] := by
  have hfinite : ∀ a ∈ closeItems, a.y.isFinite = true := by decide +kernel
  obtain ⟨hswept, -, hclustered, -⟩ := (groupLines_eq_sweptLines closeItems).2 hfinite
  exact ⟨hfinite, hswept, hclustered, by decide +kernel⟩

end ThermalLabel.LinePrint
