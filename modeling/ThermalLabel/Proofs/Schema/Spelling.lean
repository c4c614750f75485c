import ThermalLabel.Proofs.Schema.Checked
import ThermalLabel.Schema.Record
import ThermalLabel.Schema.Scalar
/-!
# What a field is read from

A field sees of an object the one member that it finds. Members under other keys, their order, and a
member under the second spelling beside one under the first are not looked at. What is read at a
field is compared either whole, with its issues in order, or by its value alone: a field found under
its other spelling has the same value, but its issues name the other key.
-/

namespace ThermalLabel.Schema

/-- What two answers are compared by. -/
inductive View where
  /-- The value, or the issues in order. -/
  | report
  /-- The value, or that there is none. -/
  | value

/-- Two answers that look alike: the same, or two refusals of which only that is seen. -/
inductive Same {α : Type} : View → Checked α → Checked α → Prop where
  | same (view : View) (x : Checked α) : Same view x x
  | refused (issues others : List Issue) : Same .value (.bad issues) (.bad others)

namespace Same

variable {α β : Type} {view : View} {x y z : Checked α} {f g : Checked (α → β)}

theorem report_iff : Same .report x y ↔ x = y := by
  constructor
  · rintro ⟨⟩
    rfl
  · rintro rfl
    exact .same _ _

theorem value_iff : Same .value x y ↔ ∀ a, x = .ok a ↔ y = .ok a := by
  constructor
  · rintro (_ | ⟨issues, others⟩) a
    · rfl
    · simp
  · intro h
    cases x with
    | ok a =>
      rw [(h a).1 rfl]
      exact .same _ _
    | bad issues =>
      cases y with
      | ok b => cases (h b).2 rfl
      | bad others => exact .refused _ _

theorem symm (h : Same view x y) : Same view y x := by
  cases h with
  | same => exact .same _ _
  | refused => exact .refused _ _

theorem trans (hxy : Same view x y) (hyz : Same view y z) : Same view x z := by
  cases hxy with
  | same => exact hyz
  | refused =>
    cases hyz with
    | same => exact .refused _ _
    | refused => exact .refused _ _

theorem map (f : α → β) (h : Same view x y) : Same view (f <$> x) (f <$> y) := by
  cases h with
  | same => exact .same _ _
  | refused => exact .refused _ _

theorem seq (hf : Same view f g) (hx : Same view x y) : Same view (f <*> x) (g <*> y) := by
  cases hf with
  | same view f =>
    cases hx with
    | same => exact .same _ _
    | refused => cases f <;> exact .refused _ _
  | refused =>
    cases hx with
    | same view x => cases x <;> exact .refused _ _
    | refused => exact .refused _ _

theorem andThen (next : α → Checked β) (h : Same view x y) :
    Same view (x.andThen next) (y.andThen next) := by
  cases h with
  | same => exact .same _ _
  | refused => exact .refused _ _

/-- The place where an answer stands is part of its issues, not of its value. -/
theorem within {step other : PathStep} (hstep : view = .report → step = other)
    (h : Same view x y) : Same view (x.within step) (y.within other) := by
  cases h with
  | same view x =>
    cases view with
    | report =>
      rw [hstep rfl]
      exact .same _ _
    | value =>
      cases x with
      | ok a => exact .same _ _
      | bad issues => exact .refused _ _
  | refused => exact .refused _ _

theorem readList {check : Json → Checked α} {v w : Json} (h : Same view (check v) (check w))
    (before after : List Json) :
    Same view (readList check (.arr (before ++ v :: after)))
      (readList check (.arr (before ++ w :: after))) := by
  have heach (start : Nat) : Same view (Checked.eachFrom check start (before ++ v :: after))
      (Checked.eachFrom check start (before ++ w :: after)) := by
    induction before generalizing start with
    | nil => exact ((h.within fun _ => rfl).map _).seq (.same _ _)
    | cons u before ih => exact (Same.same _ _).seq (ih (start + 1))
  exact heach 0

theorem readOptional {check : Json → Checked α} {v w : Json} (hnull : v = .null ↔ w = .null)
    (h : Same view (check v) (check w)) :
    Same view (readOptional check v) (readOptional check w) := by
  by_cases hv : v = .null
  · rw [hv, hnull.1 hv]
    exact .same _ _
  · have hother {u : Json} (hu : u ≠ .null) : Schema.readOptional check u = some <$> check u := by
      cases u <;> first | rfl | exact absurd rfl hu
    rw [hother hv, hother (mt hnull.2 hv)]
    exact h.map _

end Same

/-! ## The member of a field -/

namespace FieldName

/-- Both fields find a member each, or neither does. The keys may differ where only the value of
what is read there is compared. -/
def FindAlike (f : FieldName) (view : View) (alike : Json → Json → Prop)
    (members others : List (String × Json)) : Prop :=
  Option.Rel (fun m n => (view = .report → m.1 = n.1) ∧ alike m.2 n.2) (f.find? members)
    (f.find? others)

variable {f : FieldName} {view : View} {alike : Json → Json → Prop} {key : String} {v w : Json}
  {before after members others : List (String × Json)}

theorem lookup_insert (k : String) :
    (before ++ (key, v) :: after).lookup k =
      (before.lookup k).or (if k = key then some v else after.lookup k) := by
  rw [List.lookup_append, List.lookup_cons]
  by_cases h : k = key
  · rw [if_pos h, beq_iff_eq.2 h]
  · rw [if_neg h, beq_eq_false_iff_ne.2 h]

theorem lookup_insert_of_ne {k : String} (h : k ≠ key) :
    (before ++ (key, v) :: after).lookup k = (before ++ after).lookup k := by
  rw [lookup_insert, if_neg h, List.lookup_append]

theorem lookup_eq_none_of_not_mem (h : key ∉ members.map Prod.fst) : members.lookup key = none := by
  rw [List.lookup_eq_none_iff]
  intro m hm
  rw [bne_iff_ne]
  rintro rfl
  exact h (List.mem_map_of_mem hm)

theorem exists_lookup_eq_some_of_mem (h : key ∈ members.map Prod.fst) :
    ∃ u, members.lookup key = some u := by
  rw [← Option.isSome_iff_exists, Option.isSome_iff_ne_none]
  intro hnone
  obtain ⟨m, hm, rfl⟩ := List.mem_map.1 h
  exact absurd (List.lookup_eq_none_iff.1 hnone m hm) (by simp)

/-- With distinct keys, what a key leads to does not depend on the order. -/
theorem lookup_perm (h : members.Perm others) (hkeys : (members.map Prod.fst).Nodup) (k : String) :
    members.lookup k = others.lookup k := by
  induction h with
  | nil => rfl
  | cons m h ih =>
    rw [List.lookup_cons, List.lookup_cons, ih (List.nodup_cons.1 hkeys).2]
  | swap m n rest =>
    obtain ⟨mkey, _⟩ := m
    obtain ⟨nkey, _⟩ := n
    have hne : nkey ≠ mkey := by
      rintro rfl
      simp at hkeys
    simp only [List.lookup_cons]
    by_cases hm : k = mkey
    · have hn : k ≠ nkey := hm ▸ hne.symm
      rw [beq_iff_eq.2 hm, beq_eq_false_iff_ne.2 hn]
    · rw [beq_eq_false_iff_ne.2 hm]
  | trans h _ ih ih' => exact (ih hkeys).trans (ih' ((h.map Prod.fst).nodup_iff.1 hkeys))

/-- A field finds alike what both of its spellings lead to alike. -/
theorem findAlike_of_lookup
    (h : ∀ spelling, Option.Rel alike (members.lookup (f.spelled spelling))
      (others.lookup (f.spelled spelling))) : f.FindAlike view alike members others := by
  have hjoined : Option.Rel alike (members.lookup f.joined) (others.lookup f.joined) := h .joined
  have hunderscored : Option.Rel alike (members.lookup f.underscored)
    (others.lookup f.underscored) := h .underscored
  unfold FindAlike find?
  generalize members.lookup f.joined = x at *
  generalize others.lookup f.joined = y at *
  cases hjoined with
  | some halike => exact .some ⟨fun _ => rfl, halike⟩
  | none =>
    generalize members.lookup f.underscored = x at *
    generalize others.lookup f.underscored = y at *
    cases hunderscored with
    | some halike => exact .some ⟨fun _ => rfl, halike⟩
    | none => exact .none

theorem rel_of_eq {x y : Option Json} (halike : ∀ u, alike u u) (h : x = y) :
    Option.Rel alike x y := by
  subst h
  cases x with
  | none => exact .none
  | some u => exact .some (halike u)

/-- A member under no spelling of the field is not looked at. -/
theorem findAlike_insert (halike : ∀ u, alike u u) (h : ∀ spelling, f.spelled spelling ≠ key) :
    f.FindAlike view alike (before ++ (key, v) :: after) (before ++ after) :=
  findAlike_of_lookup fun spelling => rel_of_eq halike (lookup_insert_of_ne (h spelling))

/-- Nor is it where it stands under another such key. -/
theorem findAlike_rekey {other : String} (halike : ∀ u, alike u u)
    (h : ∀ spelling, f.spelled spelling ≠ key) (hother : ∀ spelling, f.spelled spelling ≠ other) :
    f.FindAlike view alike (before ++ (key, v) :: after) (before ++ (other, v) :: after) :=
  findAlike_of_lookup fun spelling => rel_of_eq halike
    ((lookup_insert_of_ne (h spelling)).trans (lookup_insert_of_ne (hother spelling)).symm)

/-- A member under the second spelling beside one under the first is not looked at. -/
theorem findAlike_shadowed (halike : ∀ u, alike u u) (hapart : f.joined ≠ f.underscored)
    (h : f.joined ∈ (before ++ after).map Prod.fst) :
    f.FindAlike view alike (before ++ (f.underscored, v) :: after) (before ++ after) := by
  obtain ⟨u, hu⟩ := exists_lookup_eq_some_of_mem h
  unfold FindAlike find?
  rw [lookup_insert_of_ne hapart, hu]
  exact .some ⟨fun _ => rfl, halike u⟩

/-- A member under its first spelling, moved to the second one. -/
theorem findAlike_rename (halike : ∀ u, alike u u)
    (hfirst : f.joined ∉ (before ++ after).map Prod.fst)
    (hsecond : f.underscored ∉ (before ++ after).map Prod.fst) :
    f.FindAlike .value alike (before ++ (f.joined, v) :: after)
      (before ++ (f.underscored, v) :: after) := by
  have hfound {k : String} (hk : k ∉ (before ++ after).map Prod.fst) :
      (before ++ (k, v) :: after).lookup k = some v := by
    rw [List.map_append, List.mem_append, not_or] at hk
    rw [lookup_insert, lookup_eq_none_of_not_mem hk.1, if_pos rfl, Option.none_or]
  have hkey : ∃ k, f.find? (before ++ (f.underscored, v) :: after) = some (k, v) := by
    unfold find?
    rw [hfound hsecond]
    by_cases hplain : f.joined = f.underscored
    · rw [hplain, hfound hsecond]
      exact ⟨_, rfl⟩
    · rw [lookup_insert_of_ne hplain, lookup_eq_none_of_not_mem hfirst]
      exact ⟨_, rfl⟩
  obtain ⟨k, hk⟩ := hkey
  unfold FindAlike
  rw [hk, find?, hfound hfirst]
  exact .some ⟨fun h => (by cases h), halike v⟩

theorem findAlike_perm (halike : ∀ u, alike u u) (h : members.Perm others)
    (hkeys : (members.map Prod.fst).Nodup) : f.FindAlike view alike members others :=
  findAlike_of_lookup fun _ => rel_of_eq halike (lookup_perm h hkeys _)

/-- The value of one member is replaced by one that the field takes for alike. -/
theorem findAlike_replace (halike : ∀ u, alike u u)
    (h : ∀ spelling, f.spelled spelling = key → alike v w) :
    f.FindAlike view alike (before ++ (key, v) :: after) (before ++ (key, w) :: after) := by
  refine findAlike_of_lookup fun spelling => ?_
  rw [lookup_insert, lookup_insert]
  cases before.lookup (f.spelled spelling) with
  | some u => exact .some (halike u)
  | none =>
    by_cases hkey : f.spelled spelling = key
    · rw [if_pos hkey, if_pos hkey]
      exact .some (h spelling hkey)
    · rw [if_neg hkey, if_neg hkey]
      exact rel_of_eq halike rfl

end FieldName

/-! ## Fields that are read alike -/

section

variable {α : Type} {f : FieldName} {view : View} {alike : Json → Json → Prop}
  {check : Json → Checked α} {members others : List (String × Json)}

theorem required_same (h : f.FindAlike view alike members others)
    (hcheck : ∀ v w, alike v w → Same view (check v) (check w)) :
    Same view (required f check members) (required f check others) := by
  unfold required
  unfold FieldName.FindAlike at h
  generalize f.find? members = x at *
  generalize f.find? others = y at *
  cases h with
  | none => exact .same _ _
  | some hmember => exact (hcheck _ _ hmember.2).within fun hview => congrArg _ (hmember.1 hview)

theorem withDefault_same {default : α} (h : f.FindAlike view alike members others)
    (hcheck : ∀ v w, alike v w → Same view (check v) (check w)) :
    Same view (withDefault f default check members) (withDefault f default check others) := by
  unfold withDefault
  unfold FieldName.FindAlike at h
  generalize f.find? members = x at *
  generalize f.find? others = y at *
  cases h with
  | none => exact .same _ _
  | some hmember => exact (hcheck _ _ hmember.2).within fun hview => congrArg _ (hmember.1 hview)

end

end ThermalLabel.Schema
