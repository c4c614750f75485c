import ThermalLabel.Proofs.Label.DistinctIds
/-!
# Elements of a section

What a section holds after an element is placed, replaced or removed. Where no id occurs twice, an
element that is found by its id stands between elements of other ids, so that replacing or removing
it leaves those as they are and in their order.
-/

namespace ThermalLabel.LabelSection

variable {s : LabelSection} {id : Text} {e new x : Element}

theorem mem_elements_push : x ∈ (s.push e).elements ↔ x ∈ s.elements ∨ x = e := by
  simp [push]

theorem mem_elements_without (h : x ∈ (s.without id).elements) : x ∈ s.elements :=
  (List.mem_filter.1 h).1

theorem mem_elements_replace (h : x ∈ (s.replace id new).elements) : x ∈ s.elements ∨ x = new := by
  obtain ⟨old, hold, rfl⟩ := List.mem_map.1 h
  by_cases hid : (old.id == id) = true
  · exact Or.inr (if_pos hid)
  · rw [if_neg hid]
    exact Or.inl hold

/-- An element that takes the place of another under its id is found instead. -/
theorem find?_replace (h : s.find? id = some e) (hnew : new.id = id) :
    (s.replace id new).find? id = some new := by
  have hsame : ((fun x : Element => x.id == id) ∘ fun x => if x.id == id then new else x) =
      fun x => x.id == id := by
    funext x
    by_cases hx : x.id = id
    · simp [hx, hnew]
    · simp [hx]
  have hid := id_of_find? h
  rw [find?] at h
  rw [find?, replace, List.find?_map, hsame, h, Option.map_some, if_pos (by simp [hid])]

theorem find?_push_of_not_mem (h : new.id ∉ s.ids) : (s.push new).find? new.id = some new := by
  have hnone : s.elements.find? (fun x => x.id == new.id) = none :=
    (find?_eq_none_iff s new.id).2 h
  rw [find?, push, List.find?_append, hnone, Option.none_or, List.find?_singleton, if_pos BEq.rfl]

theorem replace_replace (hid : e.id = id) : (s.replace id e).replace id new = s.replace id new := by
  unfold replace
  simp only [List.map_map]
  congr 1
  apply List.map_congr_left
  intro x _
  by_cases hx : x.id = id <;> simp [hx, hid]

/-- An element that is found stands between elements of other ids. -/
theorem exists_around_of_find? (hids : s.ids.Nodup) (h : s.find? id = some e) :
    ∃ before after, s.elements = before ++ e :: after ∧
      (∀ x ∈ before, x.id ≠ id) ∧ ∀ x ∈ after, x.id ≠ id := by
  have hid := id_of_find? h
  obtain ⟨-, before, after, helements, hbefore⟩ := List.find?_eq_some_iff_append.1 h
  refine ⟨before, after, helements, ?_, ?_⟩
  · intro x hx
    simpa using hbefore x hx
  · intro x hx hxid
    rw [ids, helements, List.map_append, List.map_cons] at hids
    have hnot := (List.nodup_cons.1 (List.nodup_append.1 hids).2.1).1
    exact hnot (List.mem_map.2 ⟨x, hx, hxid.trans hid.symm⟩)

variable {before after : List Element}

theorem elements_without_of_around (h : s.elements = before ++ e :: after) (hid : e.id = id)
    (hbefore : ∀ x ∈ before, x.id ≠ id) (hafter : ∀ x ∈ after, x.id ≠ id) :
    (s.without id).elements = before ++ after := by
  have hkept : ∀ l : List Element, (∀ x ∈ l, x.id ≠ id) → l.filter (fun x => x.id != id) = l := by
    intro l hl
    apply List.filter_eq_self.2
    intro x hx
    simpa using hl x hx
  rw [without, h, List.filter_append, List.filter_cons, hkept before hbefore, hkept after hafter]
  simp [hid]

theorem elements_replace_of_around (h : s.elements = before ++ e :: after) (hid : e.id = id)
    (hbefore : ∀ x ∈ before, x.id ≠ id) (hafter : ∀ x ∈ after, x.id ≠ id) (new : Element) :
    (s.replace id new).elements = before ++ new :: after := by
  have hkept : ∀ l : List Element, (∀ x ∈ l, x.id ≠ id) →
      l.map (fun x => if x.id == id then new else x) = l := by
    intro l hl
    rw [List.map_congr_left (g := fun x => x) fun x hx => if_neg (by simpa using hl x hx)]
    exact List.map_id' l
  rw [replace, h, List.map_append, List.map_cons, hkept before hbefore, hkept after hafter]
  simp [hid]

theorem replace_self (hids : s.ids.Nodup) (h : s.find? id = some e) : s.replace id e = s := by
  obtain ⟨before, after, helements, hbefore, hafter⟩ := exists_around_of_find? hids h
  have hreplaced := elements_replace_of_around helements (id_of_find? h) hbefore hafter e
  rw [← helements] at hreplaced
  exact congrArg (LabelSection.mk s.height) hreplaced

end ThermalLabel.LabelSection

/-- What all elements of a label have in common stays so if those that are new in a section have it
too. -/
theorem ThermalLabel.Label.forall_elements_modifyPart {P : Element → Prop} {label : Label}
    (h : ∀ n, ∀ e ∈ (label.part n).elements, P e) (name : SectionName)
    (f : LabelSection → LabelSection)
    (hnew : ∀ e ∈ (f (label.part name)).elements, e ∈ (label.part name).elements ∨ P e) :
    ∀ n, ∀ e ∈ ((label.modifyPart name f).part n).elements, P e := by
  intro n e he
  rw [part_modifyPart] at he
  by_cases hn : n = name
  · rw [if_pos hn] at he
    rcases hnew e he with hold | hp
    · exact h name e hold
    · exact hp
  · rw [if_neg hn] at he
    exact h n e he
