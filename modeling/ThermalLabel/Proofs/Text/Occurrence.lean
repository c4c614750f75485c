import ThermalLabel.Text.Basic
/-!
# Texts within texts

A text occurs in another one if it is one of its parts. What is put together from texts contains
each of them. A part that begins with a mark starts only where the mark is, so that its occurrences
can be counted mark by mark.
-/

namespace ThermalLabel

def OccursIn (part whole : Text) : Prop := ∃ before after, whole = before ++ part ++ after

namespace OccursIn

variable {part middle whole : Text}

theorem refl (s : Text) : OccursIn s s := ⟨"", "", by simp⟩

theorem trans (h : OccursIn part middle) (h' : OccursIn middle whole) : OccursIn part whole := by
  obtain ⟨before, after, rfl⟩ := h
  obtain ⟨before', after', rfl⟩ := h'
  refine ⟨before' ++ before, after ++ after', ?_⟩
  simp only [Text.append_assoc]

theorem append_right (h : OccursIn part whole) (s : Text) : OccursIn part (whole ++ s) := by
  obtain ⟨before, after, rfl⟩ := h
  exact ⟨before, after ++ s, by simp only [Text.append_assoc]⟩

theorem append_left (h : OccursIn part whole) (s : Text) : OccursIn part (s ++ whole) := by
  obtain ⟨before, after, rfl⟩ := h
  exact ⟨s ++ before, after, by simp only [Text.append_assoc]⟩

theorem join {texts : List Text} (h : part ∈ texts) : OccursIn part (Text.join texts) := by
  obtain ⟨before, after, rfl⟩ := List.append_of_mem h
  refine ⟨Text.join before, Text.join after, ?_⟩
  simp only [Text.join_append, Text.join_cons, Text.append_assoc]

end OccursIn

/-- At how many places of a text a part starts. -/
def occurrencesIn (part : List CodePoint) : List CodePoint → Nat
  | [] => 0
  | c :: rest => (if part.isPrefixOf (c :: rest) then 1 else 0) + occurrencesIn part rest

def occurrences (part whole : Text) : Nat := occurrencesIn part.points whole.points

section

variable {mark : CodePoint}

theorem occurrencesIn_append_of_not_mem {plain : List CodePoint} (h : mark ∉ plain)
    (part rest : List CodePoint) :
    occurrencesIn (mark :: part) (plain ++ rest) = occurrencesIn (mark :: part) rest := by
  induction plain with
  | nil => rfl
  | cons c plain ih =>
    rw [List.mem_cons, not_or] at h
    obtain ⟨hc, hplain⟩ := h
    have hstart : (mark :: part).isPrefixOf (c :: (plain ++ rest)) = false := by
      simp [List.isPrefixOf, hc]
    rw [List.cons_append, occurrencesIn, hstart, ih hplain]
    simp

/-- A part of a mark and two more code points is found at a mark by the two characters there. -/
theorem occurrencesIn_mark {a b c d : CodePoint} (hc : mark ≠ c) (hd : mark ≠ d)
    {plain : List CodePoint} (h : mark ∉ plain) (rest : List CodePoint) :
    occurrencesIn [mark, a, b] (mark :: c :: d :: (plain ++ rest)) =
      (if a = c ∧ b = d then 1 else 0) + occurrencesIn [mark, a, b] rest := by
  have hplain : mark ∉ c :: d :: plain := by simp [hc, hd, h]
  have hrest := occurrencesIn_append_of_not_mem hplain [a, b] rest
  rw [occurrencesIn, ← hrest]
  simp [List.isPrefixOf]

end

end ThermalLabel
