import ThermalLabel.Proofs.Editor.Selection
/-!
# Redoing as undoing in a mirror

With its two histories exchanged, a session undoes what it would redo. What is shown of undoing
holds of redoing as well.
-/

namespace ThermalLabel.Editor.Session

variable {α : Type} {f : Session → α} {s next : Session}

def mirrored (s : Session) : Session := { s with past := s.future, future := s.past }

theorem dropStaleSelection_mirrored (s : Session) :
    s.mirrored.dropStaleSelection = s.dropStaleSelection.mirrored := by
  have hstale : s.mirrored.selectionIsStale = s.selectionIsStale := rfl
  unfold dropStaleSelection
  by_cases h : s.selectionIsStale = true
  · rw [if_pos h, if_pos (hstale.trans h)]
    rfl
  · rw [if_neg h, if_neg (hstale ▸ h)]

theorem redo?_eq (s : Session) : s.redo? = s.mirrored.undo?.map mirrored := by
  cases hfuture : s.future with
  | nil => simp [redo?, undo?, mirrored, hfuture]
  | cons entry future =>
    have hpast : s.mirrored.past = entry :: future := hfuture
    simp only [redo?, undo?, hfuture, hpast, Option.map_some]
    rw [← dropStaleSelection_mirrored]
    rfl

theorem mirrored_undo?_of_redo? (h : s.redo? = some next) :
    s.mirrored.undo? = some next.mirrored := by
  rw [redo?_eq, Option.map_eq_some_iff] at h
  obtain ⟨back, hback, rfl⟩ := h
  exact hback

/-- Undoing touches nothing but the label, the histories and the selection. -/
theorem eq_of_undo? (h : s.undo? = some next) (hf : IgnoresSelection f)
    (hhistory : ∀ s label past future, f { s with label, past, future } = f s) :
    f next = f s := by
  unfold undo? at h
  split at h
  · cases h
  · cases h
    rw [hf.dropStaleSelection]
    exact hhistory s _ _ _

theorem eq_of_redo? (h : s.redo? = some next) (hf : IgnoresSelection f)
    (hhistory : ∀ s label past future, f { s with label, past, future } = f s) :
    f next = f s := by
  have hundo := eq_of_undo? (mirrored_undo?_of_redo? h) hf hhistory
  calc f next = f next.mirrored := (hhistory next next.label next.future next.past).symm
    _ = f s.mirrored := hundo
    _ = f s := hhistory s s.label s.future s.past

end ThermalLabel.Editor.Session
