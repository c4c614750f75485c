import Mathlib
import ThermalLabel.Proofs.LinePrint.Reach
/-!
# The layout of a line

A line shows its items from left to right by their columns, each in full and none over another. An
item stands at its column unless the text in front of it goes beyond that, and then it follows after
one space. All else on the line is blank, and it ends with its last item.
-/

namespace ThermalLabel.LinePrint

/-- An item at the place on the line where its content starts. -/
structure Placed where
  item : Item
  start : Nat

namespace Placed

def stop (p : Placed) : Nat := p.start + p.item.content.length

/-- An item behind a text of some length: at its column, or after one space if that is taken. -/
structure Follows (p : Placed) (position : Nat) : Prop where
  behind : position ≤ p.start
  column_le : p.item.column ≤ p.start
  at_column : position ≤ p.item.column → p.start = p.item.column
  after_space : p.item.column < position → p.start = position + 1

end Placed

/-- Items one behind the other, the first one behind a text of some length. -/
def InTurn (position : Nat) : List Placed → Prop
  | [] => True
  | p :: rest => p.Follows position ∧ InTurn p.stop rest

/-- Where the last item ends, or the text in front of them if there is none. -/
def endFrom (position : Nat) : List Placed → Nat
  | [] => position
  | p :: rest => endFrom p.stop rest

/-- What a line shows from some position on, where that many code points stand in front. -/
structure LaidOut (text : List CodePoint) (position : Nat) (placed : List Placed) : Prop where
  inTurn : InTurn position placed
  reads : ∀ p ∈ placed, (text.drop p.start).take p.item.content.length = p.item.content.points
  blank : ∀ i c, position ≤ i → text[i]? = some c → (∀ p ∈ placed, i < p.start ∨ p.stop ≤ i) →
    c = ' '
  ends : text.length = endFrom position placed

variable {position : Nat} {item : Item} {items : List Item} {placed : List Placed}
  {before after text : List CodePoint}

/-! ## One item -/

theorem gapBefore_nonneg (position : Int) (item : Item) : 0 ≤ gapBefore position item := by
  unfold gapBefore
  split
  · omega
  · split <;> omega

/-- An item where a line puts it behind a text. -/
def placedAfter (position : Nat) (item : Item) : Placed :=
  ⟨item, position + (gapBefore position item).toNat⟩

theorem follows_placedAfter (position : Nat) (item : Item) :
    (placedAfter position item).Follows position := by
  have hgap := gapBefore_nonneg position item
  have hstart : ((placedAfter position item).start : Int) = position + gapBefore position item := by
    change ((position + (gapBefore position item).toNat : Nat) : Int) = _
    omega
  have hitem : (placedAfter position item).item = item := rfl
  unfold gapBefore at hstart
  constructor <;> rw [hitem] at * <;> split_ifs at hstart <;> omega

theorem stop_placedAfter (position : Nat) (item : Item) :
    ((placedAfter position item).stop : Int) =
      position + gapBefore position item + item.content.length := by
  have hgap := gapBefore_nonneg position item
  change ((position + (gapBefore position item).toNat + item.content.length : Nat) : Int) = _
  omega

theorem exists_of_layOut_cons (h : layOut position (item :: items) = .ok text) :
    ∃ after, layOut (placedAfter position item).stop items = .ok after ∧
      text = List.replicate (gapBefore position item).toNat (.char ' ') ++ item.content.points ++
        after := by
  rw [layOut_cons, ← stop_placedAfter] at h
  obtain ⟨blank, hblank, h⟩ := bind_eq_ok_iff.1 h
  obtain ⟨after, hafter, h⟩ := bind_eq_ok_iff.1 h
  refine ⟨after, hafter, ?_⟩
  rw [repeated] at hblank
  split at hblank
  · cases hblank
  · cases hblank
    cases h
    rw [Text.points_plain, String.toList_ofList, List.map_replicate]

/-- A line with one more item in front of what is laid out. -/
theorem LaidOut.cons (hbefore : before.length = position)
    (htext : text = before ++ (List.replicate (gapBefore position item).toNat (.char ' ') ++
      item.content.points ++ after))
    (h : LaidOut text (placedAfter position item).stop placed) :
    LaidOut text position (placedAfter position item :: placed) where
  inTurn := ⟨follows_placedAfter position item, h.inTurn⟩
  reads := by
    have hhead : (text.drop (placedAfter position item).start).take item.content.length =
        item.content.points := by
      have hstart :
          (before ++ List.replicate (gapBefore position item).toNat (CodePoint.char ' ')).length =
            (placedAfter position item).start := by
        simp [placedAfter, hbefore]
      rw [htext, List.append_assoc, ← List.append_assoc before, List.drop_left' hstart,
        List.take_left' Text.length_points]
    exact List.forall_mem_cons.2 ⟨hhead, h.reads⟩
  blank := by
    intro i c hi hc houtside
    obtain ⟨hhead, hrest⟩ := List.forall_mem_cons.1 houtside
    obtain hfront | hbehind := hhead
    · -- In front of the item there are only the spaces that keep it off the text before it.
      have hgap : i - before.length < (gapBefore position item).toNat := by
        change i < position + (gapBefore position item).toNat at hfront
        omega
      rw [htext, List.getElem?_append_right (hbefore ▸ hi), List.append_assoc,
        List.getElem?_append_left (by simpa using hgap), List.getElem?_replicate_of_lt hgap] at hc
      exact (Option.some.inj hc).symm
    · exact h.blank i c hbehind hc hrest
  ends := h.ends

/-! ## A line -/

theorem exists_placed (position : Nat) (h : layOut position items = .ok text) :
    ∃ placed : List Placed, placed.map Placed.item = items ∧
      ∀ before : List CodePoint, before.length = position →
        LaidOut (before ++ text) position placed := by
  induction items generalizing position text with
  | nil =>
    cases h
    refine ⟨[], rfl, fun before hbefore => ?_⟩
    rw [List.append_nil]
    refine ⟨trivial, fun p hp => absurd hp List.not_mem_nil, fun i c hi hc _ => ?_, hbefore⟩
    rw [List.getElem?_eq_none (hbefore ▸ hi)] at hc
    cases hc
  | cons item items ih =>
    obtain ⟨after, hafter, htext⟩ := exists_of_layOut_cons h
    obtain ⟨placed, hplaced, hlaidOut⟩ := ih _ hafter
    refine ⟨placedAfter position item :: placed, ?_, fun before hbefore => ?_⟩
    · rw [List.map_cons, hplaced]
      rfl
    · have hfront :
          (before ++ (List.replicate (gapBefore position item).toNat (CodePoint.char ' ') ++
            item.content.points)).length = (placedAfter position item).stop := by
        simp [placedAfter, Placed.stop, hbefore, Text.length_points, Nat.add_assoc]
      have hrest := hlaidOut _ hfront
      rw [List.append_assoc, ← htext] at hrest
      exact hrest.cons hbefore (congrArg (before ++ ·) htext)

/-- A line that fits is laid out in stable order of its columns. One that does not, because an item
lies too far behind the text in front of it, has no text; without a column that far no item does. -/
theorem text_laidOut (line : Line) :
    (line.Fits → ∃ text placed, line.text = .ok text ∧
      StablyOrdered Item.column (placed.map Placed.item) line.items ∧
        LaidOut text.points 0 placed) ∧
    (¬ line.Fits → line.text = .error .repetitionTooLong) ∧
    ((∀ item ∈ line.items, item.column < 2 ^ 63) → line.Fits) := by
  refine ⟨fun hfits => ?_, fun hfits => ?_, fun hcolumns => ?_⟩
  · obtain ⟨text, htext⟩ := exists_layOut_iff.2 hfits
    obtain ⟨placed, hplaced, hlaidOut⟩ := exists_placed 0 htext
    refine ⟨Text.ofPoints text, placed, by rw [Line.text, htext]; rfl, ?_, ?_⟩
    · rw [hplaced]
      exact stablyOrdered_stableOrder Item.column line.items
    · rw [Text.points_ofPoints]
      exact hlaidOut [] rfl
  · cases htext : line.text with
    | ok text => exact absurd (exists_text_iff.1 ⟨text, htext⟩) hfits
    | error err => rw [error_of_text htext]
  · exact Line.fits_of_column_lt hcolumns

/-- Items that overlap, abut, tie and stand in front of the line. -/
def crowdedLine : Line :=
  ⟨0.0, [⟨0.0, 8, "Total"⟩, ⟨0.0, -3, "Tea"⟩, ⟨0.0, 2, "x"⟩, ⟨0.0, 2, ""⟩, ⟨0.0, 6, "2"⟩]⟩

theorem crowdedLine_laidOut :
    crowdedLine.Fits ∧ ∃ placed, crowdedLine.text = .ok " Tea x  2 Total" ∧
      StablyOrdered Item.column (placed.map Placed.item) crowdedLine.items ∧
        LaidOut (Text.points " Tea x  2 Total") 0 placed := by
  have hcolumns : ∀ item ∈ crowdedLine.items, item.column < 2 ^ 63 := by decide
  have hfits := (text_laidOut crowdedLine).2.2 hcolumns
  obtain ⟨text, placed, htext, hordered, hlaidOut⟩ := (text_laidOut crowdedLine).1 hfits
  have hshown : crowdedLine.text = .ok " Tea x  2 Total" := by decide +kernel
  rw [hshown] at htext
  cases htext
  exact ⟨hfits, placed, hshown, hordered, hlaidOut⟩

/-- A line whose only item stands farther to the right than a text can be filled up to. -/
def farLine : Line := ⟨0.0, [⟨0.0, 2 ^ 63, "a"⟩]⟩

theorem farLine_not_laidOut :
    farLine.text = .error .repetitionTooLong ∧
      ¬ ∃ text placed, farLine.text = .ok text ∧
        StablyOrdered Item.column (placed.map Placed.item) farLine.items ∧
          LaidOut text.points 0 placed := by
  have herror : farLine.text = .error .repetitionTooLong := rfl
  refine ⟨herror, ?_⟩
  rintro ⟨text, placed, htext, -, -⟩
  rw [herror] at htext
  cases htext

end ThermalLabel.LinePrint
