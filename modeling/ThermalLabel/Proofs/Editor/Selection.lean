import ThermalLabel.Proofs.Editor.Perform
/-!
# What a selection does not touch

Operations that give up a selection, or may do so, leave everything else in a session as it is.
-/

namespace ThermalLabel.Editor.Session

variable {α : Type} {f : Session → α}

/-- Something about a session that has nothing to do with what is selected. -/
def IgnoresSelection (f : Session → α) : Prop := ∀ s, f s.deselect = f s

theorem IgnoresSelection.dropStaleSelection (hf : IgnoresSelection f) (s : Session) :
    f s.dropStaleSelection = f s := by
  unfold Session.dropStaleSelection
  by_cases h : s.selectionIsStale = true
  · rw [if_pos h]
    exact hf s
  · rw [if_neg h]

theorem IgnoresSelection.accept (hf : IgnoresSelection f) (s : Session) (edit : Edit)
    (r : Edited) : f (s.accept edit r) = f (s.commit r.name r.label) := by
  unfold Session.accept
  by_cases h : deselectedBy s.selectedElement edit = true
  · simp only [if_pos h]
    exact hf _
  · simp only [if_neg h]

theorem ignoresSelection_label : IgnoresSelection label := by
  intro s
  rfl

theorem ignoresSelection_zoom : IgnoresSelection zoom := by
  intro s
  rfl

theorem ignoresSelection_historyLimit : IgnoresSelection historyLimit := by
  intro s
  rfl

end ThermalLabel.Editor.Session
