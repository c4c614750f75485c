import Mathlib
import ThermalLabel.LinePrint.Line
import ThermalLabel.Proofs.Fallible
import ThermalLabel.Proofs.LinePrint.StableOrder
/-!
# Which lines can be laid out

Blanks are written one by one, and there is a bound to how many a text can be asked for. A line is
laid out unless one of its items lies too many columns behind the text before it.
-/

namespace ThermalLabel.LinePrint

theorem exists_repeated_iff {c : Char} {count : Int} :
    (∃ text, repeated c count = .ok text) ↔ count < 2 ^ 63 := by
  have hpower : ((Nat.pow 2 63 : Nat) : Int) = 2 ^ 63 := rfl
  rw [repeated, hpower]
  split
  · simp
    omega
  · simp
    omega

theorem error_of_repeated {c : Char} {count : Int} {err : NumberError}
    (h : repeated c count = .error err) : err = .repetitionTooLong := by
  rw [repeated] at h
  split at h
  · cases h
    rfl
  · cases h

theorem ne_empty_of_repeated {c : Char} {count : Int} {text : Text} (hpos : 1 ≤ count)
    (h : repeated c count = .ok text) : text ≠ "" := by
  rw [repeated] at h
  split at h
  · cases h
  · cases h
    have hsome : count.toNat ≠ 0 := by omega
    simpa [String.ofList_eq_empty_iff] using hsome

/-- How many columns are left free in front of an item. -/
def gapBefore (position : Int) (item : Item) : Int :=
  if position < item.column then item.column - position
  else if item.column < position then 1 else 0

theorem layOut_cons (position : Int) (item : Item) (items : List Item) :
    layOut position (item :: items) = do
      let blank ← repeated ' ' (gapBefore position item)
      let after ← layOut (position + gapBefore position item + item.content.length) items
      return blank.points ++ item.content.points ++ after := rfl

theorem error_of_layOut {position : Int} {items : List Item} {err : NumberError}
    (h : layOut position items = .error err) : err = .repetitionTooLong := by
  induction items generalizing position with
  | nil => cases h
  | cons item items ih =>
    rw [layOut_cons] at h
    obtain hblank | ⟨blank, -, h⟩ := bind_eq_error_iff.1 h
    · exact error_of_repeated hblank
    · obtain hafter | ⟨after, -, h⟩ := bind_eq_error_iff.1 h
      · exact ih hafter
      · cases h

/-- A line that has no text asks for too many blanks. -/
theorem error_of_text {line : Line} {err : NumberError} (h : line.text = .error err) :
    err = .repetitionTooLong := by
  rw [Line.text] at h
  cases hlayOut : layOut 0 (stableOrder (fun a b => decide (a.column < b.column)) line.items) with
  | ok text =>
    rw [hlayOut] at h
    cases h
  | error err' =>
    rw [hlayOut] at h
    cases h
    exact error_of_layOut hlayOut

/-- No item lies out of reach of the text before it. -/
def FitsFrom (position : Int) : List Item → Prop
  | [] => True
  | item :: rest => gapBefore position item < 2 ^ 63 ∧
      FitsFrom (position + gapBefore position item + item.content.length) rest

instance decidableFitsFrom : (position : Int) → (items : List Item) →
    Decidable (FitsFrom position items)
  | _, [] => .isTrue trivial
  | position, item :: rest =>
    have := decidableFitsFrom (position + gapBefore position item + item.content.length) rest
    inferInstanceAs (Decidable (_ ∧ _))

def Line.Fits (line : Line) : Prop :=
  FitsFrom 0 (stableOrder (fun a b => decide (a.column < b.column)) line.items)

instance (line : Line) : Decidable line.Fits := decidableFitsFrom ..

theorem exists_layOut_iff {position : Int} {items : List Item} :
    (∃ text, layOut position items = .ok text) ↔ FitsFrom position items := by
  induction items generalizing position with
  | nil => exact iff_of_true ⟨[], rfl⟩ trivial
  | cons item rest ih =>
    rw [FitsFrom, ← exists_repeated_iff (c := ' '), ← ih]
    simp [layOut_cons, exists_bind_eq_ok_iff, pure, Except.pure]

theorem exists_text_iff {line : Line} : (∃ text, line.text = .ok text) ↔ line.Fits := by
  rw [Line.text, exists_map_eq_ok_iff, exists_layOut_iff, Line.Fits]

theorem fitsFrom_of_column_lt {position : Int} {items : List Item} (hposition : 0 ≤ position)
    (h : ∀ item ∈ items, item.column < Nat.pow 2 63) : FitsFrom position items := by
  induction items generalizing position with
  | nil => trivial
  | cons item rest ih =>
    obtain ⟨hitem, hrest⟩ := List.forall_mem_cons.1 h
    have hgap : 0 ≤ gapBefore position item ∧ gapBefore position item < 2 ^ 63 := by
      have hpower : Nat.pow 2 63 = 9223372036854775808 := rfl
      rw [hpower] at hitem
      unfold gapBefore
      split
      · omega
      · split <;> omega
    exact ⟨hgap.2, ih (by omega) hrest⟩

/-- Where no item is out of reach of the start, none is of the text before it. -/
theorem Line.fits_of_column_lt {line : Line} (h : ∀ item ∈ line.items, item.column < Nat.pow 2 63) :
    line.Fits :=
  fitsFrom_of_column_lt le_rfl fun item hitem => h item ((stableOrder_perm _ _).mem_iff.1 hitem)

end ThermalLabel.LinePrint
