import ThermalLabel.Proofs.Editor.Mirrored
/-!
# Labels that a session holds

Besides its current label a session holds those that can be brought back. What every edit keeps of
a label therefore holds, after any run, of all of them: undoing and redoing only exchange them.
-/

namespace ThermalLabel.Editor

namespace Session

/-- The current label, and the labels in both histories. -/
def snapshots (s : Session) : List Label :=
  s.label :: (s.past ++ s.future).map Entry.label

theorem forall_snapshots (s : Session) (P : Label → Prop) :
    (∀ l ∈ s.snapshots, P l) ↔
      P s.label ∧ (∀ entry ∈ s.past, P entry.label) ∧ ∀ entry ∈ s.future, P entry.label := by
  simp [snapshots, or_imp, forall_and]

theorem ignoresSelection_snapshots : IgnoresSelection snapshots := by
  intro s
  rfl

theorem mem_of_mem_remember {limit : Int} {entry new : Entry} {past : List Entry}
    (h : entry ∈ remember limit new past) : entry = new ∨ entry ∈ past := by
  unfold remember at h
  split at h
  · exact List.mem_cons.1 (List.dropLast_subset _ h)
  · exact List.mem_cons.1 h

theorem forall_snapshots_commit {s : Session} {P : Label → Prop} (hs : ∀ l ∈ s.snapshots, P l)
    (name : EditName) {label : Label} (hlabel : P label) :
    ∀ l ∈ (s.commit name label).snapshots, P l := by
  obtain ⟨hcurrent, hpast, -⟩ := (s.forall_snapshots P).1 hs
  rw [forall_snapshots]
  refine ⟨hlabel, ?_, ?_⟩
  · intro entry hentry
    rcases mem_of_mem_remember hentry with rfl | hold
    · exact hcurrent
    · exact hpast entry hold
  · intro entry hentry
    exact absurd hentry List.not_mem_nil

theorem forall_snapshots_accept {s : Session} {P : Label → Prop} (hs : ∀ l ∈ s.snapshots, P l)
    (edit : Edit) {r : Edited} (hr : P r.label) : ∀ l ∈ (s.accept edit r).snapshots, P l := by
  rw [ignoresSelection_snapshots.accept]
  exact forall_snapshots_commit hs r.name hr

theorem forall_snapshots_undo? {s next : Session} {P : Label → Prop}
    (hs : ∀ l ∈ s.snapshots, P l) (h : s.undo? = some next) : ∀ l ∈ next.snapshots, P l := by
  obtain ⟨hcurrent, hpast, hfuture⟩ := (s.forall_snapshots P).1 hs
  unfold undo? at h
  split at h
  · cases h
  · rename_i entry past hentry
    cases h
    rw [hentry] at hpast
    rw [ignoresSelection_snapshots.dropStaleSelection, forall_snapshots]
    refine ⟨hpast entry List.mem_cons_self, ?_, ?_⟩
    · intro other hother
      exact hpast other (List.mem_cons_of_mem entry hother)
    · intro other hother
      rcases List.mem_cons.1 hother with rfl | hold
      · exact hcurrent
      · exact hfuture other hold

theorem forall_snapshots_mirrored (s : Session) (P : Label → Prop) :
    (∀ l ∈ s.mirrored.snapshots, P l) ↔ ∀ l ∈ s.snapshots, P l := by
  rw [forall_snapshots, forall_snapshots]
  exact and_congr_right fun _ => and_comm

theorem forall_snapshots_redo? {s next : Session} {P : Label → Prop}
    (hs : ∀ l ∈ s.snapshots, P l) (h : s.redo? = some next) : ∀ l ∈ next.snapshots, P l := by
  rw [← forall_snapshots_mirrored] at hs ⊢
  exact forall_snapshots_undo? hs (mirrored_undo?_of_redo? h)

theorem forall_snapshots_step {s : Session} {P : Label → Prop} (hs : ∀ l ∈ s.snapshots, P l)
    (op : Operation)
    (hop : ∀ edit r, op = .edit edit → edit.apply s.zoom s.label = .ok r → P r.label) :
    ∀ l ∈ (s.step op).1.snapshots, P l := by
  cases op with
  | edit e =>
    simp only [step, perform_eq]
    cases happly : e.apply s.zoom s.label with
    | ok r => exact forall_snapshots_accept hs e (hop e r rfl happly)
    | error err => exact hs
  | select target place =>
    rcases place with _ | _ | _ <;> exact hs
  | setZoom zoom => exact hs
  | undo =>
    simp only [step]
    cases h : s.undo? with
    | none => exact hs
    | some next => exact forall_snapshots_undo? hs h
  | redo =>
    simp only [step]
    cases h : s.redo? with
    | none => exact hs
    | some next => exact forall_snapshots_redo? hs h

/-- A property of labels that all edits of a run keep holds of every label at its end. -/
theorem forall_snapshots_run {s : Session} {P : Label → Prop} (ops : List Operation)
    (hs : ∀ l ∈ s.snapshots, P l)
    (hops : ∀ edit, .edit edit ∈ ops → ∀ zoom label r, P label →
      edit.apply zoom label = .ok r → P r.label) :
    ∀ l ∈ (s.run ops).snapshots, P l := by
  induction ops generalizing s with
  | nil => exact hs
  | cons op ops ih =>
    have hcurrent : P s.label := ((s.forall_snapshots P).1 hs).1
    apply ih
    · apply forall_snapshots_step hs
      intro edit r hop happly
      exact hops edit (hop ▸ List.mem_cons_self) s.zoom s.label r hcurrent happly
    · intro edit hedit
      exact hops edit (List.mem_cons_of_mem op hedit)

end Session
end ThermalLabel.Editor
