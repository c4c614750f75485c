import Mathlib
import ThermalLabel.Label.Lookup
/-!
# Labels without repeated ids

No two elements of such a label share an id, be they in one section or in two. What is added,
replaced, removed or moved keeps it so, as long as an id that comes in is free.
-/

namespace ThermalLabel

namespace LabelSection

def ids (s : LabelSection) : List Text := s.elements.map Element.id

@[simp] theorem ids_push (s : LabelSection) (e : Element) : (s.push e).ids = s.ids ++ [e.id] := by
  simp [ids, push]

@[simp] theorem ids_without (s : LabelSection) (id : Text) :
    (s.without id).ids = s.ids.filter fun x => x != id := by
  simp [ids, without, List.filter_map, Function.comp_def]

@[simp] theorem ids_replace (s : LabelSection) (id : Text) (new : Element) :
    (s.replace id new).ids = s.ids.map fun x => if x = id then new.id else x := by
  simp only [ids, replace, List.map_map]
  apply List.map_congr_left
  intro e _
  by_cases h : e.id = id <;> simp [h]

theorem find?_eq_none_iff (s : LabelSection) (id : Text) : s.find? id = none ↔ id ∉ s.ids := by
  simp [find?, ids]

theorem mem_ids_of_find? {s : LabelSection} {id : Text} {e : Element}
    (h : s.find? id = some e) : id ∈ s.ids := by
  rw [← id_of_find? h]
  exact List.mem_map_of_mem (mem_of_find? h)

theorem nodup_ids_replace {s : LabelSection} {id : Text} {new : Element} (h : s.ids.Nodup)
    (hnew : new.id = id ∨ new.id ∉ s.ids) : (s.replace id new).ids.Nodup := by
  rw [ids_replace]
  apply h.map_on
  intro x hx y hy hxy
  rcases hnew with hsame | hfree
  · subst hsame
    by_cases hxi : x = new.id <;> by_cases hyi : y = new.id <;> simp_all
  · by_cases hxi : x = id <;> by_cases hyi : y = id <;> simp_all

end LabelSection

namespace Label

def ids (label : Label) : List Text := label.elements.map Element.id

/-- No id occurs twice, in whichever sections. -/
def DistinctIds (label : Label) : Prop := label.ids.Nodup

instance (label : Label) : Decidable label.DistinctIds := inferInstanceAs (Decidable (List.Nodup _))

theorem ids_eq (label : Label) :
    label.ids = label.header.ids ++ label.body.ids ++ label.footer.ids := by
  simp [ids, elements, LabelSection.ids]

theorem distinctIds_iff (label : Label) :
    label.DistinctIds ↔
      (∀ n, (label.part n).ids.Nodup) ∧
        ∀ n m, n ≠ m → ∀ x ∈ (label.part n).ids, x ∉ (label.part m).ids := by
  unfold DistinctIds
  rw [ids_eq]
  simp only [List.nodup_append, List.mem_append]
  constructor
  · rintro ⟨⟨hh, hb, hhb⟩, hf, hhbf⟩
    refine ⟨?_, ?_⟩
    · intro n
      cases n <;> assumption
    · have hheaderBody : ∀ x ∈ label.header.ids, x ∉ label.body.ids :=
        fun x hx hx' => hhb x hx x hx' rfl
      have hheaderFooter : ∀ x ∈ label.header.ids, x ∉ label.footer.ids :=
        fun x hx hx' => hhbf x (Or.inl hx) x hx' rfl
      have hbodyFooter : ∀ x ∈ label.body.ids, x ∉ label.footer.ids :=
        fun x hx hx' => hhbf x (Or.inr hx) x hx' rfl
      intro n m hnm x
      cases n <;> cases m <;> grind [part]
  · rintro ⟨hparts, hapart⟩
    refine ⟨⟨hparts .header, hparts .body, ?_⟩, hparts .footer, ?_⟩
    · intro x hx y hy hxy
      subst hxy
      exact hapart .header .body (by decide) x hx hy
    · intro x hx y hy hxy
      subst hxy
      rcases hx with hx | hx
      · exact hapart .header .footer (by decide) x hx hy
      · exact hapart .body .footer (by decide) x hx hy

theorem find?_eq_none_iff (label : Label) (id : Text) :
    label.find? id = none ↔ ∀ n, id ∉ (label.part n).ids := by
  simp only [find?, SectionName.all, List.findSome?_eq_none_iff, Option.map_eq_none_iff,
    LabelSection.find?_eq_none_iff]
  constructor
  · intro h n
    apply h
    cases n <;> simp
  · intro h n _
    exact h n

theorem not_hasId_iff (label : Label) (id : Text) :
    label.hasId id = false ↔ ∀ n, id ∉ (label.part n).ids := by
  rw [← find?_eq_none_iff, hasId, Option.isSome_eq_false_iff, Option.isNone_iff_eq_none]

theorem mem_ids_of_find? {label : Label} {id : Text} {name : SectionName} {e : Element}
    (h : label.find? id = some (name, e)) : id ∈ (label.part name).ids := by
  obtain ⟨n, -, hfound⟩ := List.exists_of_findSome?_eq_some h
  obtain ⟨found, hfind, hpair⟩ := Option.map_eq_some_iff.1 hfound
  cases hpair
  exact LabelSection.mem_ids_of_find? hfind

theorem hasId_of_mem_ids {label : Label} {id : Text} {name : SectionName}
    (h : id ∈ (label.part name).ids) : label.hasId id = true := by
  by_contra hnot
  rw [Bool.not_eq_true, not_hasId_iff] at hnot
  exact hnot name h

namespace DistinctIds

variable {label : Label}

/-- A section may change as long as its ids stay apart from each other and from those of the
other sections. -/
theorem modifyPart (h : label.DistinctIds) (name : SectionName)
    (f : LabelSection → LabelSection) (hnodup : (f (label.part name)).ids.Nodup)
    (hother : ∀ m, m ≠ name → ∀ x ∈ (f (label.part name)).ids, x ∉ (label.part m).ids) :
    (label.modifyPart name f).DistinctIds := by
  obtain ⟨hparts, hapart⟩ := (distinctIds_iff label).1 h
  rw [distinctIds_iff]
  simp only [part_modifyPart]
  refine ⟨?_, ?_⟩
  · intro n
    by_cases hn : n = name
    · rw [if_pos hn]
      exact hnodup
    · rw [if_neg hn]
      exact hparts n
  · intro n m hnm x hx hx'
    by_cases hn : n = name <;> by_cases hm : m = name
    · exact hnm (hn.trans hm.symm)
    · rw [if_pos hn] at hx
      rw [if_neg hm] at hx'
      exact hother m hm x hx hx'
    · rw [if_neg hn] at hx
      rw [if_pos hm] at hx'
      exact hother n hn x hx' hx
    · rw [if_neg hn] at hx
      rw [if_neg hm] at hx'
      exact hapart n m hnm x hx hx'

theorem push (h : label.DistinctIds) (name : SectionName) {e : Element}
    (hfree : ∀ n, e.id ∉ (label.part n).ids) :
    (label.modifyPart name (·.push e)).DistinctIds := by
  obtain ⟨hparts, hapart⟩ := (distinctIds_iff label).1 h
  apply h.modifyPart
  · rw [LabelSection.ids_push]
    refine List.nodup_append.2 ⟨hparts name, List.nodup_singleton _, ?_⟩
    intro x hx y hy hxy
    rw [List.mem_singleton.1 hy] at hxy
    exact hfree name (hxy ▸ hx)
  · intro m hm x hx
    rw [LabelSection.ids_push, List.mem_append, List.mem_singleton] at hx
    rcases hx with hx | rfl
    · exact hapart name m hm.symm x hx
    · exact hfree m

theorem without (h : label.DistinctIds) (name : SectionName) (id : Text) :
    (label.modifyPart name (·.without id)).DistinctIds := by
  obtain ⟨hparts, hapart⟩ := (distinctIds_iff label).1 h
  apply h.modifyPart
  · rw [LabelSection.ids_without]
    exact (hparts name).filter _
  · intro m hm x hx
    rw [LabelSection.ids_without] at hx
    exact hapart name m hm.symm x (List.mem_of_mem_filter hx)

theorem replace (h : label.DistinctIds) (name : SectionName) {id : Text} {new : Element}
    (hid : id ∈ (label.part name).ids)
    (hnew : new.id = id ∨ ∀ n, new.id ∉ (label.part n).ids) :
    (label.modifyPart name (·.replace id new)).DistinctIds := by
  obtain ⟨hparts, hapart⟩ := (distinctIds_iff label).1 h
  apply h.modifyPart
  · exact LabelSection.nodup_ids_replace (hparts name) (hnew.imp_right fun hfree => hfree name)
  · intro m hm x hx
    rw [LabelSection.ids_replace, List.mem_map] at hx
    obtain ⟨y, hy, rfl⟩ := hx
    by_cases hyi : y = id
    · rw [if_pos hyi]
      rcases hnew with hsame | hfree
      · rw [hsame]
        exact hapart name m hm.symm id hid
      · exact hfree m
    · rw [if_neg hyi]
      exact hapart name m hm.symm y hy

/-- An element taken out of a section leaves its id free for the one that it becomes elsewhere. -/
theorem move (h : label.DistinctIds) (source target : SectionName) {id : Text}
    (hid : id ∈ (label.part source).ids) (moved : Element) (hmoved : moved.id = id) :
    ((label.modifyPart source (·.without id)).modifyPart target (·.push moved)).DistinctIds := by
  obtain ⟨-, hapart⟩ := (distinctIds_iff label).1 h
  apply (h.without source id).push
  intro n hn
  rw [hmoved, part_modifyPart] at hn
  by_cases hsource : n = source
  · rw [if_pos hsource, LabelSection.ids_without] at hn
    simp at hn
  · rw [if_neg hsource] at hn
    exact hapart source n (Ne.symm hsource) id hid hn

end DistinctIds
end Label
end ThermalLabel
