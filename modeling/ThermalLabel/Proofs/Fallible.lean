/-!
# Results that may be errors

When a computation that can fail succeeds, told from its parts.
-/

namespace ThermalLabel

variable {ε δ α β γ : Type}

theorem bind_eq_ok_iff {x : Except ε α} {f : α → Except ε β} {b : β} :
    x >>= f = .ok b ↔ ∃ a, x = .ok a ∧ f a = .ok b := by
  cases x <;> simp [bind, Except.bind]

theorem bind_eq_error_iff {x : Except ε α} {f : α → Except ε β} {err : ε} :
    x >>= f = .error err ↔ x = .error err ∨ ∃ a, x = .ok a ∧ f a = .error err := by
  cases x <;> simp [bind, Except.bind]

theorem exists_bind_eq_ok_iff {x : Except ε α} {f : α → Except ε β} :
    (∃ b, x >>= f = .ok b) ↔ ∃ a, x = .ok a ∧ ∃ b, f a = .ok b := by
  cases x <;> simp [bind, Except.bind]

theorem exists_map_eq_ok_iff {x : Except ε α} {f : α → β} :
    (∃ b, x.map f = .ok b) ↔ ∃ a, x = .ok a := by
  cases x <;> simp [Except.map]

theorem exists_eq_ok {x : Except ε α} (h : x.isOk = true) : ∃ a, x = .ok a := by
  cases x with
  | ok a => exact ⟨a, rfl⟩
  | error err => cases h

theorem mapError_eq_ok_iff {x : Except ε α} {f : ε → δ} {a : α} :
    x.mapError f = .ok a ↔ x = .ok a := by
  cases x with
  | ok b =>
    constructor
    · intro h
      cases h
      rfl
    · intro h
      cases h
      rfl
  | error e =>
    constructor
    · intro h
      cases h
    · intro h
      cases h

theorem mapError_eq_error_iff {x : Except ε α} {f : ε → δ} {d : δ} :
    x.mapError f = .error d ↔ ∃ err, x = .error err ∧ f err = d := by
  cases x with
  | ok a =>
    constructor
    · intro h
      cases h
    · rintro ⟨err, h, -⟩
      cases h
  | error e =>
    constructor
    · intro h
      cases h
      exact ⟨e, rfl, rfl⟩
    · rintro ⟨err, h, rfl⟩
      cases h
      rfl

theorem mapM_eq_ok_map {f : α → Except ε β} {g : α → β} {l : List α}
    (h : ∀ a ∈ l, f a = .ok (g a)) : l.mapM f = .ok (l.map g) := by
  induction l with
  | nil => rfl
  | cons a l ih =>
    have ha := h a List.mem_cons_self
    have hl := ih fun b hb => h b (List.mem_cons_of_mem a hb)
    rw [List.mapM_cons, ha, hl]
    rfl

theorem exists_mapM_eq_ok {f : α → Except ε β} {l : List α} (h : ∀ a ∈ l, ∃ b, f a = .ok b) :
    ∃ l', l.mapM f = .ok l' := by
  induction l with
  | nil => exact ⟨[], rfl⟩
  | cons a l ih =>
    obtain ⟨b, hb⟩ := h a List.mem_cons_self
    obtain ⟨l', hl'⟩ := ih fun c hc => h c (List.mem_cons_of_mem a hc)
    refine ⟨b :: l', ?_⟩
    rw [List.mapM_cons, hb, hl']
    rfl

theorem mapM_congr {f g : α → Except ε β} {l : List α} (h : ∀ a ∈ l, f a = g a) :
    l.mapM f = l.mapM g := by
  induction l with
  | nil => rfl
  | cons a l ih =>
    have ha := h a List.mem_cons_self
    have hl := ih fun b hb => h b (List.mem_cons_of_mem a hb)
    rw [List.mapM_cons, List.mapM_cons, ha, hl]

theorem mapM_map {f : α → Except ε β} {g : β → γ} {l : List α} :
    (l.mapM fun a => (f a).map g) = (l.mapM f).map (List.map g) := by
  induction l with
  | nil => rfl
  | cons a l ih =>
    rw [List.mapM_cons, List.mapM_cons, ih]
    cases f a with
    | error err => rfl
    | ok b => cases l.mapM f <;> rfl

/-- A list computed item by item has at each place what its item gave. -/
theorem map_ok_getElem?_of_mapM {f : α → Except ε β} {l : List α} {l' : List β}
    (h : l.mapM f = .ok l') (i : Nat) : l'[i]?.map Except.ok = l[i]?.map f := by
  induction l generalizing l' i with
  | nil =>
    cases h
    rfl
  | cons a l ih =>
    rw [List.mapM_cons] at h
    obtain ⟨b, hb, h⟩ := bind_eq_ok_iff.1 h
    obtain ⟨rest, hrest, h⟩ := bind_eq_ok_iff.1 h
    cases h
    cases i with
    | zero => simp [hb]
    | succ i => simpa using ih hrest i

/-- A list is computed if each of its items is. -/
theorem exists_mapM_eq_ok_iff {f : α → Except ε β} {l : List α} :
    (∃ l', l.mapM f = .ok l') ↔ ∀ a ∈ l, ∃ b, f a = .ok b := by
  constructor
  · rintro ⟨l', h⟩ a ha
    obtain ⟨i, hi⟩ := List.mem_iff_getElem?.1 ha
    have hitem := map_ok_getElem?_of_mapM h i
    rw [hi, Option.map_some, Option.map_eq_some_iff] at hitem
    obtain ⟨b, -, hb⟩ := hitem
    exact ⟨b, hb.symm⟩
  · exact exists_mapM_eq_ok

theorem exists_of_mem_mapM {f : α → Except ε β} {l : List α} {l' : List β}
    (h : l.mapM f = .ok l') {b : β} (hb : b ∈ l') : ∃ a ∈ l, f a = .ok b := by
  obtain ⟨i, hi⟩ := List.mem_iff_getElem?.1 hb
  have hitem := map_ok_getElem?_of_mapM h i
  rw [hi, Option.map_some, eq_comm, Option.map_eq_some_iff] at hitem
  obtain ⟨a, ha, hfa⟩ := hitem
  exact ⟨a, List.mem_of_getElem? ha, hfa⟩

/-- What a list fails with is what one of its items fails with. -/
theorem exists_of_mapM_eq_error {f : α → Except ε β} {l : List α} {err : ε}
    (h : l.mapM f = .error err) : ∃ a ∈ l, f a = .error err := by
  induction l with
  | nil => cases h
  | cons a l ih =>
    rw [List.mapM_cons] at h
    obtain ha | ⟨b, -, h⟩ := bind_eq_error_iff.1 h
    · exact ⟨a, List.mem_cons_self, ha⟩
    · obtain hl | ⟨l', -, h⟩ := bind_eq_error_iff.1 h
      · obtain ⟨c, hc, hfc⟩ := ih hl
        exact ⟨c, List.mem_cons_of_mem a hc, hfc⟩
      · cases h

/-- An item that gives nothing could as well be missing. -/
theorem mapM_filterMap_skip {f : α → Except ε (Option β)} {before after : List α} {a : α}
    (h : f a = .ok none) :
    ((before ++ a :: after).mapM f).map (List.filterMap id) =
      ((before ++ after).mapM f).map (List.filterMap id) := by
  induction before with
  | nil =>
    rw [List.nil_append, List.nil_append, List.mapM_cons, h]
    cases after.mapM f <;> rfl
  | cons b before ih =>
    rw [List.cons_append, List.cons_append, List.mapM_cons, List.mapM_cons]
    cases f b with
    | error err => rfl
    | ok o =>
      have hcons (items : Except ε (List (Option β))) :
          (items >>= fun rest => pure (o :: rest)).map (List.filterMap id) =
            (items.map (List.filterMap id)).map (o.toList ++ ·) := by
        cases items with
        | error err => rfl
        | ok rest => cases o <;> rfl
      exact (hcons _).trans ((congrArg _ ih).trans (hcons _).symm)

theorem map_bind_eq {x : Except ε α} {f : α → Except ε β} {g : β → γ} :
    (x >>= f).map g = x >>= fun a => (f a).map g := by
  cases x <;> rfl

theorem bind_map_eq {x : Except ε α} {g : α → β} {f : β → Except ε γ} :
    (x.map g >>= f) = x >>= fun a => f (g a) := by
  cases x <;> rfl

section

variable {x : Except ε α} {y : Except ε β} {f : α → β → γ}

end

end ThermalLabel
