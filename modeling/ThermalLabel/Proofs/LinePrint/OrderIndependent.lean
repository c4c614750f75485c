import ThermalLabel.LinePrint.Label
import ThermalLabel.Proofs.Fallible
import ThermalLabel.Proofs.LinePrint.Grouping
import ThermalLabel.Proofs.LinePrint.Reach
import ThermalLabel.Proofs.LinePrint.StableOrder
/-!
# Line print does not depend on the order of elements

Items are visited by height and each line is laid out by column. Where items of the same height and
column show the same, no order of the elements makes a difference: heights that tie lead to the same
lines, and within a line only items that show the same are left to their order.
-/

namespace ThermalLabel

open Binary64

theorem mapM_congr_forall₂ {ε α β : Type} {f : α → Except ε β} {R : α → α → Prop} {xs ys : List α}
    (h : List.Forall₂ R xs ys) (hf : ∀ x ∈ xs, ∀ y ∈ ys, R x y → f x = f y) :
    xs.mapM f = ys.mapM f := by
  induction h with
  | nil => rfl
  | cons hxy h ih =>
    have hhead := hf _ List.mem_cons_self _ List.mem_cons_self hxy
    have htail := ih fun x hx y hy =>
      hf x (List.mem_cons_of_mem _ hx) y (List.mem_cons_of_mem _ hy)
    rw [List.mapM_cons, List.mapM_cons, hhead, htail]

namespace LinePrint

variable {items items' : List Item} {line line' : Line}

/-! ## Laying out a line -/

/-- All that counts of an item on its line. -/
def Item.cell (item : Item) : Int × Text := (item.column, item.content)

theorem layOut_congr {xs ys : List Item} (h : xs.map Item.cell = ys.map Item.cell)
    (position : Int) : layOut position xs = layOut position ys := by
  induction xs generalizing ys position with
  | nil =>
    rw [List.map_eq_nil_iff.1 h.symm]
  | cons a xs ih =>
    cases ys with
    | nil => cases h
    | cons b ys =>
      obtain ⟨hcell, hrest⟩ := List.cons_eq_cons.1 h
      have hcolumn : a.column = b.column := congrArg Prod.fst hcell
      have hcontent : a.content = b.content := congrArg Prod.snd hcell
      simp only [layOut, hcolumn, hcontent, ih hrest]

/-! ## One line -/

/-- Items of the same height and column show the same. -/
def TiesAgree (items : List Item) : Prop :=
  ∀ a ∈ items, ∀ b ∈ items, orderKey a.y = orderKey b.y → a.column = b.column →
    a.content = b.content

theorem text_congr (hperm : line.items.Perm line'.items)
    (hvisited : line.items.Pairwise fun a b => orderKey a.y ≤ orderKey b.y)
    (hvisited' : line'.items.Pairwise fun a b => orderKey a.y ≤ orderKey b.y)
    (hagree : TiesAgree line.items) : line.text = line'.text := by
  have horder := inOrder_stableOrder Item.column hvisited
  have horder' := inOrder_stableOrder Item.column hvisited'
  have hordered := stableOrder_perm (keyBefore Item.column) line.items
  have hordered' := stableOrder_perm (keyBefore Item.column) line'.items
  have hcells : (stableOrder (keyBefore Item.column) line.items).map Item.cell =
      (stableOrder (keyBefore Item.column) line'.items).map Item.cell := by
    refine Reordered.map_eq ?_ fun a b (htied : a.cell = b.cell) => htied
    · apply reordered_of_pairwise (hordered.trans (hperm.trans hordered'.symm)) horder horder'
      · exact fun _ _ => rfl
      · intro a ha b hb hab hba
        have ha := hordered.mem_iff.1 ha
        have hb := hordered.mem_iff.1 hb
        -- Items that may stand either way tie both in column and in height.
        have htie : a.column = b.column ∧ orderKey a.y = orderKey b.y := by
          rcases hab with hlt | ⟨hcolumn, hle⟩
          · rcases hba with hlt' | ⟨hcolumn, -⟩
            · exact absurd hlt' hlt.asymm
            · exact absurd hcolumn hlt.ne'
          · rcases hba with hlt' | ⟨-, hle'⟩
            · exact absurd hcolumn hlt'.ne'
            · exact ⟨hcolumn, hle.antisymm hle'⟩
        exact Prod.ext htie.1 (hagree a ha b hb htie.2 htie.1)
  exact congrArg (Except.map Text.ofPoints) (layOut_congr hcells 0)

/-! ## All lines -/

def visited (items : List Item) : List Item :=
  stableOrder (fun a b => decide (a.y < b.y)) items

theorem visited_eq (h : ∀ a ∈ items, a.y.isFinite = true) :
    visited items = stableOrder (keyBefore fun a : Item => orderKey a.y) items := by
  apply stableOrder_congr
  intro a ha b hb
  exact decide_eq_decide.2 (lt_iff_orderKey_lt (h a ha) (h b hb))

theorem visited_perm (items : List Item) : (visited items).Perm items := stableOrder_perm _ items

theorem pairwise_visited (h : ∀ a ∈ items, a.y.isFinite = true) :
    (visited items).Pairwise fun a b => orderKey a.y ≤ orderKey b.y := by
  rw [visited_eq h]
  exact (inOrder_stableOrder _ (List.pairwise_of_forall fun _ _ => trivial)).pairwise_le

theorem lines_congr (hperm : items.Perm items') (hfinite : ∀ a ∈ items, a.y.isFinite = true)
    (hagree : TiesAgree items) :
    (groupLines items).mapM Line.text = (groupLines items').mapM Line.text := by
  have hfinite' : ∀ a ∈ items', a.y.isFinite = true := fun a ha => hfinite a (hperm.mem_iff.2 ha)
  have hvisited := pairwise_visited hfinite
  have hvisited' := pairwise_visited hfinite'
  have hmem : ∀ a ∈ visited items, a ∈ items := fun a ha => (visited_perm items).mem_iff.1 ha
  have hreordered :
      Reordered (fun a b : Item => Ties a.y b.y) (visited items) (visited items') := by
    apply reordered_of_pairwise _ hvisited hvisited'
    · exact fun a ha => ties_refl (hfinite a (hmem a ha))
    · intro a ha b hb hab hba
      exact ⟨hfinite a (hmem a ha), hfinite b (hmem b hb), hab.antisymm hba⟩
    · exact (visited_perm items).trans (hperm.trans (visited_perm items').symm)
  apply mapM_congr_forall₂ (alike_foldl_addItem hreordered)
  intro line hline line' hline' hlike
  have hsublist := sublist_of_mem_foldl_addItem _ line hline
  have hsublist' := sublist_of_mem_foldl_addItem _ line' hline'
  apply text_congr hlike.items (hvisited.sublist hsublist) (hvisited'.sublist hsublist')
  intro a ha b hb
  exact hagree a (hmem a (hsublist.subset ha)) b (hmem b (hsublist.subset hb))

theorem fits_of_mem_groupLines (h : ∀ a ∈ items, a.column < Nat.pow 2 63)
    (hline : line ∈ groupLines items) : line.Fits := by
  have hsublist := sublist_of_mem_foldl_addItem _ line hline
  apply Line.fits_of_column_lt
  intro a ha
  exact h a ((visited_perm items).mem_iff.1 (hsublist.subset ha))

/-! ## A section -/

variable (data : SampleData) (mode : Mode) (row : Option DataRecord)

def item? (e : Element) : Option Item :=
  match itemOf data mode e row with
  | .ok item => item
  | .error _ => none

theorem item?_eq_some_iff {e : Element} {i : Item} :
    item? data mode row e = some i ↔ itemOf data mode e row = .ok (some i) := by
  unfold item?
  cases itemOf data mode e row with
  | ok item => simp
  | error err => simp

theorem sectionText_eq {elements : List Element}
    (h : ∀ e ∈ elements, ∃ item, itemOf data mode e row = .ok item) :
    sectionText data mode elements row =
      ((groupLines (elements.filterMap (item? data mode row))).mapM Line.text).map
        fun lines => Text.join (lines.map (· ++ "\n")) := by
  have hitems : elements.mapM (fun e => itemOf data mode e row) =
      .ok (elements.map (item? data mode row)) := by
    apply mapM_eq_ok_map
    intro e he
    obtain ⟨item, hitem⟩ := h e he
    rw [item?, hitem]
  rw [sectionText, hitems]
  simp only [bind, Except.bind, pure, Except.pure, List.filterMap_map, Function.comp_def, id_eq]
  cases (groupLines (elements.filterMap (item? data mode row))).mapM Line.text <;> rfl

/-- On every line of a section each item is in reach of the text before it. -/
def LinesFit (elements : List Element) : Prop :=
  ∀ line ∈ groupLines (elements.filterMap (item? data mode row)), line.Fits

section

variable {elements : List Element}
  (hitems : ∀ e ∈ elements, ∃ item, itemOf data mode e row = .ok item)
include hitems

theorem exists_sectionText (h : LinesFit data mode row elements) :
    ∃ text, sectionText data mode elements row = .ok text := by
  obtain ⟨lines, hlines⟩ := exists_mapM_eq_ok fun _ hline => exists_text_iff.2 (h _ hline)
  rw [sectionText_eq data mode row hitems, hlines]
  exact ⟨_, rfl⟩

theorem sectionText_eq_error (h : ¬ LinesFit data mode row elements) :
    sectionText data mode elements row = .error .repetitionTooLong := by
  rw [sectionText_eq data mode row hitems]
  cases hlines : (groupLines (elements.filterMap (item? data mode row))).mapM Line.text with
  | ok lines =>
    refine absurd (fun line hline => ?_) h
    exact exists_text_iff.1 (exists_mapM_eq_ok_iff.1 ⟨lines, hlines⟩ line hline)
  | error err =>
    obtain ⟨line, -, htext⟩ := exists_of_mapM_eq_error hlines
    rw [error_of_text htext]
    rfl

end

variable {data mode row} in
theorem exists_of_mem_items {elements : List Element} {i : Item}
    (hi : i ∈ elements.filterMap (item? data mode row)) :
    ∃ e ∈ elements, itemOf data mode e row = .ok (some i) := by
  obtain ⟨e, he, hitem⟩ := List.mem_filterMap.1 hi
  exact ⟨e, he, (item?_eq_some_iff data mode row).1 hitem⟩

/-- A section shows the same in whatever order its elements stand, if each of them has an item or
none, all of these at finite heights, and those of the same height and column show the same. Nor
does the order decide whether there is a text: there is one unless an item of some line is out of
reach of the text before it, and without a column that far none is. -/
theorem sectionText_perm {elements elements' : List Element} (hperm : elements.Perm elements')
    (hitems : ∀ e ∈ elements, ∃ item, itemOf data mode e row = .ok item)
    (hfinite : ∀ e ∈ elements, ∀ i, itemOf data mode e row = .ok (some i) → i.y.isFinite = true)
    (hagree : ∀ e ∈ elements, ∀ e' ∈ elements, ∀ i i', itemOf data mode e row = .ok (some i) →
      itemOf data mode e' row = .ok (some i') → (i.y == i'.y) = true → i.column = i'.column →
        i.content = i'.content) :
    sectionText data mode elements row = sectionText data mode elements' row ∧
      (LinesFit data mode row elements → ∃ text, sectionText data mode elements row = .ok text) ∧
      (¬ LinesFit data mode row elements →
        sectionText data mode elements row = .error .repetitionTooLong) ∧
      ((∀ e ∈ elements, ∀ i, itemOf data mode e row = .ok (some i) → i.column < 2 ^ 63) →
        LinesFit data mode row elements) := by
  have hfinite' : ∀ i ∈ elements.filterMap (item? data mode row), i.y.isFinite = true := by
    intro i hi
    obtain ⟨e, he, hitem⟩ := exists_of_mem_items hi
    exact hfinite e he i hitem
  have hagree' : TiesAgree (elements.filterMap (item? data mode row)) := by
    intro i hi i' hi' hkey hcolumn
    obtain ⟨e, he, hitem⟩ := exists_of_mem_items hi
    obtain ⟨e', he', hitem'⟩ := exists_of_mem_items hi'
    have htie := (beq_iff_orderKey_eq (hfinite' i hi) (hfinite' i' hi')).2 hkey
    exact hagree e he e' he' i i' hitem hitem' htie hcolumn
  refine ⟨?_, exists_sectionText data mode row hitems, sectionText_eq_error data mode row hitems, ?_⟩
  · rw [sectionText_eq data mode row hitems,
      sectionText_eq data mode row fun e he => hitems e (hperm.mem_iff.2 he),
      lines_congr (hperm.filterMap _) hfinite' hagree']
  · intro hcolumns line hline
    refine fits_of_mem_groupLines (fun i hi => ?_) hline
    obtain ⟨e, he, hitem⟩ := exists_of_mem_items hi
    exact hcolumns e he i hitem

def textAt (x y : Float) (content : Text) : Element where
  id := content
  kind := .text
  x := x
  y := y
  width := none
  height := none
  content := some content
  isDynamic := false
  dataSource := none
  imageKey := none
  fontSize := none
  fontBold := none
  rotation := none
  maxChars := none
  barcodeKind := none
  showLabel := none
  bitmap := none
  imageData := none

/-- Each a little lower than the one before, the last too far from the first to share its line. -/
def chain : List Element :=
  [textAt 0.0 0.0 "Tea", textAt 100.0 (-0.0) "2.50", textAt 0.0 10.0 "(hot)",
    textAt 0.0 20.0 "Cake"]

def chainItem (e : Element) : Item := ⟨e.y, if e.x == 100.0 then 15 else 0, e.id⟩

theorem chain_text_of_reverse :
    (∀ e ∈ chain, itemOf .standard .sample e none = .ok (some (chainItem e))) ∧
      (∀ e ∈ chain, (chainItem e).y.isFinite = true) ∧
      sectionText .standard .sample chain none = sectionText .standard .sample chain.reverse none ∧
      ∃ text, sectionText .standard .sample chain none = .ok text := by
  have hitems : ∀ e ∈ chain, itemOf .standard .sample e none = .ok (some (chainItem e)) := by
    decide +kernel
  have hfinite : ∀ e ∈ chain, (chainItem e).y.isFinite = true := by decide +kernel
  have hagree : ∀ e ∈ chain, ∀ e' ∈ chain, ((chainItem e).y == (chainItem e').y) = true →
      (chainItem e).column = (chainItem e').column →
        (chainItem e).content = (chainItem e').content := by
    decide +kernel
  have hcolumns : ∀ e ∈ chain, (chainItem e).column < 2 ^ 63 := by decide +kernel
  have hitem {e : Element} (he : e ∈ chain) {i : Item}
      (hi : itemOf .standard .sample e none = .ok (some i)) : chainItem e = i :=
    Option.some.inj (Except.ok.inj ((hitems e he).symm.trans hi))
  have hperm := sectionText_perm .standard .sample none chain.reverse_perm.symm
    (fun e he => ⟨_, hitems e he⟩) (fun e he i hi => hitem he hi ▸ hfinite e he)
    (fun e he e' he' i i' hi hi' => hitem he hi ▸ hitem he' hi' ▸ hagree e he e' he')
  have hfits := hperm.2.2.2 fun e he i hi => hitem he hi ▸ hcolumns e he
  exact ⟨hitems, hfinite, hperm.1, hperm.2.1 hfits⟩

/-- The second text stands farther to the right than a line can be filled up to. -/
def nearAndFar : List Element := [textAt 0.0 0.0 "Tea", textAt 1e20 20.0 "Cake"]

def nearAndFarItem (e : Element) : Item :=
  ⟨e.y, if e.x == 0.0 then 0 else 15874999999999997952, e.id⟩

theorem nearAndFar_have_no_text :
    nearAndFar.Perm nearAndFar.reverse ∧
      (∀ e ∈ nearAndFar, itemOf .standard .sample e none = .ok (some (nearAndFarItem e))) ∧
      (∀ e ∈ nearAndFar, (nearAndFarItem e).y.isFinite = true) ∧
      (∀ e ∈ nearAndFar, ∀ e' ∈ nearAndFar,
        ((nearAndFarItem e).y == (nearAndFarItem e').y) = true →
          (nearAndFarItem e).column = (nearAndFarItem e').column →
            (nearAndFarItem e).content = (nearAndFarItem e').content) ∧
      sectionText .standard .sample nearAndFar none = .error .repetitionTooLong ∧
      ¬ ∃ text, sectionText .standard .sample nearAndFar none = .ok text ∧
        sectionText .standard .sample nearAndFar.reverse none = .ok text := by
  have herror : sectionText .standard .sample nearAndFar none = .error .repetitionTooLong := by
    decide +kernel
  refine ⟨nearAndFar.reverse_perm.symm, by decide +kernel, by decide +kernel, by decide +kernel,
    herror, ?_⟩
  rintro ⟨text, htext, -⟩
  rw [herror] at htext
  cases htext

end LinePrint
end ThermalLabel
