import ThermalLabel.Schema.Checked
/-!
# When a checked value is right

A value made of parts is right exactly when each part is. The statements carry what is to hold of
the value along, so that a chain of parts comes apart from its end.
-/

namespace ThermalLabel.Schema.Checked

variable {α β : Type}

theorem exists_map_ok (f : α → β) (x : Checked α) (P : β → Prop) :
    (∃ b, x.map f = ok b ∧ P b) ↔ ∃ a, x = ok a ∧ P (f a) := by
  cases x <;> simp [map]

theorem exists_seq_ok (f : Checked (α → β)) (x : Unit → Checked α) (P : β → Prop) :
    (∃ b, seq f x = ok b ∧ P b) ↔ ∃ a, x () = ok a ∧ ∃ g, f = ok g ∧ P (g a) := by
  cases f with
  | ok g => simp [seq, exists_map_ok]
  | bad issues => cases hx : x () <;> simp [seq, hx]

theorem map_eq_ok_iff {f : α → β} {x : Checked α} {b : β} :
    x.map f = ok b ↔ ∃ a, x = ok a ∧ f a = b := by
  cases x <;> simp [map]

theorem andThen_eq_ok_iff (x : Checked α) (f : α → Checked β) (b : β) :
    x.andThen f = ok b ↔ ∃ a, x = ok a ∧ f a = ok b := by
  cases x <;> simp [andThen]

@[simp] theorem within_eq_ok_iff (x : Checked α) (step : PathStep) (a : α) :
    x.within step = ok a ↔ x = ok a := by
  cases x <;> simp [within]

@[simp] theorem fault_ne_ok (f : Fault) (a : α) : fault f ≠ ok a := by
  simp [fault]

end ThermalLabel.Schema.Checked
