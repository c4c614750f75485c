import ThermalLabel.Text.Encoding
/-!
# Where a text cannot be encoded

A text has an encoding unless half of a surrogate pair stands alone in it. The refusal then locates
the first one, with all that follow it without a character between them.
-/

namespace ThermalLabel

/-- The first halves of a text are at a place: behind characters only, and no half follows them. -/
def EncodingError.Locates (e : EncodingError) (t : Text) : Prop :=
  ∃ (before : List Char) (more : List Half) (after : List CodePoint),
    t.points = before.map .char ++ .half e.first :: (more.map .half ++ after) ∧
      before.length = e.position ∧ more.length = e.more ∧ ∀ h, after.head? ≠ some (.half h)

namespace Text

theorem head?_map_char_ne (cs : List Char) (h : Half) :
    (cs.map CodePoint.char).head? ≠ some (.half h) := by
  cases cs <;> simp

theorem exists_leadingHalves (t : Text) :
    ∃ (halves : List Half) (after : List CodePoint), t.points = halves.map .half ++ after ∧
      halves.length = t.leadingHalves ∧ ∀ h, after.head? ≠ some (.half h) := by
  induction t with
  | plain s => exact ⟨[], _, rfl, rfl, head?_map_char_ne s.toList⟩
  | broken before half after ih =>
    by_cases hbefore : before = ""
    · obtain ⟨halves, rest, hpoints, hlength, hrest⟩ := ih
      subst hbefore
      refine ⟨half :: halves, rest, ?_, ?_, hrest⟩
      · simp [points, hpoints]
      · simp [leadingHalves, hlength]
    · refine ⟨[], _, rfl, by simp [leadingHalves, hbefore], ?_⟩
      intro h
      obtain ⟨c, cs, hchars⟩ := List.exists_cons_of_ne_nil (mt String.toList_eq_nil_iff.1 hbefore)
      simp [hchars]

theorem locates_of_encode {t : Text} {e : EncodingError} (h : t.encode = .error e) :
    e.Locates t := by
  cases t with
  | plain s => cases h
  | broken before half after =>
    obtain ⟨more, rest, hpoints, hlength, hrest⟩ := exists_leadingHalves after
    cases h
    refine ⟨before.toList, more, rest, ?_, String.length_toList, hlength, hrest⟩
    rw [points, hpoints]

end Text
end ThermalLabel
