import ThermalLabel.Proofs.Editor.Mirrored
/-!
# Histories as timelines

The two histories of a session are one line of labels with a cursor on it. An edit cuts the line
off behind the cursor and appends its label; undoing and redoing move the cursor. The line holds
no more edits than the limit, the oldest being forgotten first. A session does in every run what
such a line does.
-/

namespace ThermalLabel.Editor

/-- Labels in the order in which they came about, the names of the edits between them, and the
place of the current one. -/
structure Timeline where
  labels : List Label
  names : List EditName
  cursor : Nat
  length_labels : labels.length = names.length + 1
  cursor_le : cursor ≤ names.length

namespace Timeline

theorem ext {t u : Timeline} (hlabels : t.labels = u.labels) (hnames : t.names = u.names)
    (hcursor : t.cursor = u.cursor) : t = u := by
  cases t
  cases u
  simp_all

def start (label : Label) : Timeline := ⟨[label], [], 0, rfl, Nat.le_refl 0⟩

def current (t : Timeline) : Label :=
  t.labels.get ⟨t.cursor, by have hlength := t.length_labels; have hcursor := t.cursor_le; omega⟩

/-- The line up to the cursor, and an edit that follows there. -/
def extend (t : Timeline) (name : EditName) (label : Label) : Timeline where
  labels := t.labels.take (t.cursor + 1) ++ [label]
  names := t.names.take t.cursor ++ [name]
  cursor := t.cursor + 1
  length_labels := by
    have hlength := t.length_labels
    have hcursor := t.cursor_le
    simp only [List.length_append, List.length_take, List.length_singleton]
    omega
  cursor_le := by
    have hcursor := t.cursor_le
    simp only [List.length_append, List.length_take, List.length_singleton]
    omega

def forgetFirst (t : Timeline) (h : 0 < t.names.length) : Timeline where
  labels := t.labels.drop 1
  names := t.names.drop 1
  cursor := t.cursor - 1
  length_labels := by
    have hlength := t.length_labels
    simp only [List.length_drop]
    omega
  cursor_le := by
    have hcursor := t.cursor_le
    simp only [List.length_drop]
    omega

/-- An edit recorded. If there are then too many, the oldest is forgotten. -/
def record (t : Timeline) (limit : Nat) (name : EditName) (label : Label) : Timeline :=
  let extended := t.extend name label
  if h : limit < extended.names.length then extended.forgetFirst (by omega) else extended

def back? (t : Timeline) : Option Timeline :=
  if 0 < t.cursor then
    some { t with cursor := t.cursor - 1, cursor_le := by have hcursor := t.cursor_le; omega }
  else none

def forward? (t : Timeline) : Option Timeline :=
  if h : t.cursor < t.names.length then some { t with cursor := t.cursor + 1, cursor_le := h }
  else none

end Timeline

/-- What an operation can depend on: the timeline, and the zoom at which drags are measured. -/
structure Chronicle where
  timeline : Timeline
  zoom : Float

namespace Chronicle

def start (label : Label) : Chronicle := ⟨.start label, defaultZoom⟩

/-- An operation on a timeline. Refused edits, selections and the zoom leave it alone. -/
def step (limit : Nat) (c : Chronicle) : Operation → Chronicle × Except EditError Outcome
  | .edit e =>
    match e.apply c.zoom c.timeline.current with
    | .ok r =>
      ({ c with timeline := c.timeline.record limit r.name r.label },
        .ok (Outcome.ofElement r.element))
    | .error err => (c, .error err)
  | .select _ (some (.error cause)) => (c, .error (.unknownSection cause))
  | .select _ _ => (c, .ok .done)
  | .setZoom zoom => ({ c with zoom := clampZoom zoom }, .ok .done)
  | .undo =>
    match c.timeline.back? with
    | some t => ({ c with timeline := t }, .ok (.moved true))
    | none => (c, .ok (.moved false))
  | .redo =>
    match c.timeline.forward? with
    | some t => ({ c with timeline := t }, .ok (.moved true))
    | none => (c, .ok (.moved false))

def run (limit : Nat) (c : Chronicle) (operations : List Operation) : Chronicle :=
  operations.foldl (fun c op => (c.step limit op).1) c

end Chronicle

namespace Session

/-- The histories of a session as one line: the past from first to last, the label, the future. An
entry of the past holds the label before its edit, one of the future the label after it. -/
def timeline (s : Session) : Timeline where
  labels := s.past.reverse.map Entry.label ++ s.label :: s.future.map Entry.label
  names := s.past.reverse.map Entry.name ++ s.future.map Entry.name
  cursor := s.past.length
  length_labels := by
    simp only [List.length_append, List.length_map, List.length_reverse, List.length_cons]
    omega
  cursor_le := by
    simp only [List.length_append, List.length_map, List.length_reverse]
    omega

def chronicle (s : Session) : Chronicle := ⟨s.timeline, s.zoom⟩

theorem current_timeline (s : Session) : s.timeline.current = s.label := by
  simp [Timeline.current, timeline, List.getElem_append_right]

theorem history_eq_take (s : Session) : s.history = s.timeline.names.take s.timeline.cursor := by
  simp [history, timeline]

theorem canUndo_iff (s : Session) : s.canUndo ↔ 0 < s.timeline.cursor := by
  cases hpast : s.past <;> simp [canUndo, timeline, hpast]

theorem canRedo_iff (s : Session) : s.canRedo ↔ s.timeline.cursor < s.timeline.names.length := by
  cases hfuture : s.future <;> simp [canRedo, timeline, hfuture]

theorem ignoresSelection_timeline : IgnoresSelection timeline := by
  intro s
  rfl

private theorem reverse_remember (limit : Nat) (entry : Entry) (past : List Entry) :
    (remember limit entry past).reverse =
      if limit < past.length + 1 then (past.reverse ++ [entry]).drop 1
      else past.reverse ++ [entry] := by
  unfold remember
  by_cases h : limit < past.length + 1
  · have hint : (limit : Int) < ((entry :: past).length : Nat) := by
      rw [List.length_cons]
      exact_mod_cast h
    rw [if_pos hint, if_pos h, List.drop_one, ← List.reverse_cons, List.tail_reverse]
  · have hint : ¬ (limit : Int) < ((entry :: past).length : Nat) := by
      rw [List.length_cons]
      exact_mod_cast h
    rw [if_neg hint, if_neg h, List.reverse_cons]

private theorem labels_extend (s : Session) (name : EditName) (label : Label) :
    (s.timeline.extend name label).labels =
      (s.past.reverse.map Entry.label ++ [s.label]) ++ [label] := by
  have htake : s.past.length + 1 = (s.past.reverse.map Entry.label ++ [s.label]).length := by simp
  simp only [Timeline.extend, timeline]
  rw [List.append_cons _ s.label, htake, List.take_left']
  rfl

private theorem names_extend (s : Session) (name : EditName) (label : Label) :
    (s.timeline.extend name label).names = s.past.reverse.map Entry.name ++ [name] := by
  have htake : s.past.length = (s.past.reverse.map Entry.name).length := by simp
  simp only [Timeline.extend, timeline]
  rw [htake, List.take_left']
  rfl

/-- Committing a label records its edit. -/
theorem timeline_commit (s : Session) (limit : Nat) (hlimit : s.historyLimit = limit)
    (name : EditName) (label : Label) :
    (s.commit name label).timeline = s.timeline.record limit name label := by
  have hlength : (s.timeline.extend name label).names.length = s.past.length + 1 := by
    simp [names_extend]
  have hpast := reverse_remember limit ⟨name, s.label⟩ s.past
  have hcursor := congrArg List.length hpast
  rw [List.length_reverse] at hcursor
  -- Both sides forget their oldest edit in the same case, and then the first label with it.
  by_cases h : limit < s.past.length + 1
  · rw [if_pos h] at hpast hcursor
    simp only [Timeline.record, hlength, h, dif_pos]
    apply Timeline.ext
    · change (remember s.historyLimit _ s.past).reverse.map Entry.label ++ [label] =
        (s.timeline.extend name label).labels.drop 1
      have hdrop : ((s.past.reverse.map Entry.label ++ [s.label]) ++ [label]).drop 1 =
          (s.past.reverse.map Entry.label ++ [s.label]).drop 1 ++ [label] :=
        List.drop_append_of_le_length (by simp)
      rw [hlimit, hpast, labels_extend, hdrop, List.map_drop, List.map_append]
      rfl
    · change (remember s.historyLimit _ s.past).reverse.map Entry.name ++ [] =
        (s.timeline.extend name label).names.drop 1
      rw [hlimit, hpast, names_extend]
      simp
    · change (remember s.historyLimit _ s.past).length = s.past.length + 1 - 1
      rw [hlimit, hcursor]
      simp
  · rw [if_neg h] at hpast hcursor
    simp only [Timeline.record, hlength, h, dif_neg, not_false_eq_true]
    apply Timeline.ext
    · change (remember s.historyLimit _ s.past).reverse.map Entry.label ++ [label] = _
      rw [hlimit, hpast, labels_extend]
      simp
    · change (remember s.historyLimit _ s.past).reverse.map Entry.name ++ [] = _
      rw [hlimit, hpast, names_extend]
      simp
    · change (remember s.historyLimit _ s.past).length = s.past.length + 1
      rw [hlimit, hcursor]
      simp

theorem timeline_undo? (s : Session) : s.undo?.map timeline = s.timeline.back? := by
  cases hpast : s.past with
  | nil => simp [undo?, Timeline.back?, timeline, hpast]
  | cons entry past =>
    simp only [undo?, hpast, Option.map_some, ignoresSelection_timeline.dropStaleSelection]
    have hcursor : 0 < s.timeline.cursor := by simp [timeline, hpast]
    rw [Timeline.back?, if_pos hcursor]
    congr 1
    apply Timeline.ext <;> simp [timeline, hpast]

theorem timeline_redo? (s : Session) : s.redo?.map timeline = s.timeline.forward? := by
  cases hfuture : s.future with
  | nil => simp [redo?, Timeline.forward?, timeline, hfuture]
  | cons entry future =>
    simp only [redo?, hfuture, Option.map_some, ignoresSelection_timeline.dropStaleSelection]
    have hcursor : s.timeline.cursor < s.timeline.names.length := by simp [timeline, hfuture]
    rw [Timeline.forward?, dif_pos hcursor]
    congr 1
    apply Timeline.ext <;> simp [timeline, hfuture]

theorem historyLimit_step (s : Session) (op : Operation) :
    (s.step op).1.historyLimit = s.historyLimit := by
  cases op with
  | edit e =>
    simp only [step, perform_eq]
    cases e.apply s.zoom s.label with
    | ok r => exact ignoresSelection_historyLimit.accept s e r
    | error err => rfl
  | select target place =>
    rcases place with _ | _ | _ <;> rfl
  | setZoom zoom => rfl
  | undo =>
    simp only [step]
    cases h : s.undo? with
    | none => rfl
    | some next => exact eq_of_undo? h ignoresSelection_historyLimit fun _ _ _ _ => rfl
  | redo =>
    simp only [step]
    cases h : s.redo? with
    | none => rfl
    | some next => exact eq_of_redo? h ignoresSelection_historyLimit fun _ _ _ _ => rfl

/-- A session and its timeline take the same step, to the client as well. -/
theorem chronicle_step (s : Session) (limit : Nat) (hlimit : s.historyLimit = limit)
    (op : Operation) :
    ((s.step op).1.chronicle, (s.step op).2) = s.chronicle.step limit op := by
  cases op with
  | edit e =>
    simp only [step, perform_eq, Chronicle.step, chronicle, current_timeline]
    cases e.apply s.zoom s.label with
    | ok r =>
      have htimeline := ignoresSelection_timeline.accept s e r
      have hzoom := ignoresSelection_zoom.accept s e r
      rw [timeline_commit s limit hlimit] at htimeline
      simp only [htimeline, hzoom]
      rfl
    | error err => rfl
  | select target place =>
    rcases place with _ | _ | _ <;> rfl
  | setZoom zoom => rfl
  | undo =>
    have hundo := s.timeline_undo?
    simp only [step, Chronicle.step, chronicle]
    cases h : s.undo? with
    | none =>
      rw [h] at hundo
      rw [← hundo]
      rfl
    | some next =>
      rw [h] at hundo
      have hzoom := eq_of_undo? h ignoresSelection_zoom fun _ _ _ _ => rfl
      rw [← hundo]
      simp only [Option.map_some, hzoom]
  | redo =>
    have hredo := s.timeline_redo?
    simp only [step, Chronicle.step, chronicle]
    cases h : s.redo? with
    | none =>
      rw [h] at hredo
      rw [← hredo]
      rfl
    | some next =>
      rw [h] at hredo
      have hzoom := eq_of_redo? h ignoresSelection_zoom fun _ _ _ _ => rfl
      rw [← hredo]
      simp only [Option.map_some, hzoom]

theorem chronicle_run (s : Session) (limit : Nat) (hlimit : s.historyLimit = limit)
    (ops : List Operation) :
    (s.run ops).chronicle = s.chronicle.run limit ops ∧ (s.run ops).historyLimit = limit := by
  induction ops generalizing s with
  | nil => exact ⟨rfl, hlimit⟩
  | cons op ops ih =>
    have hstep := congrArg Prod.fst (s.chronicle_step limit hlimit op)
    have hnext := ih (s.step op).1 ((s.historyLimit_step op).trans hlimit)
    change ((s.step op).1.run ops).chronicle = (s.chronicle.step limit op).1.run limit ops ∧ _
    rw [← hstep]
    exact hnext

end Session

namespace Timeline

theorem length_names_record (t : Timeline) (limit : Nat) (name : EditName) (label : Label)
    (h : t.names.length ≤ limit) : (t.record limit name label).names.length ≤ limit := by
  have hcursor := t.cursor_le
  have hextend : (t.extend name label).names.length = t.cursor + 1 := by
    simp only [extend, List.length_append, List.length_take, List.length_singleton]
    omega
  unfold record
  by_cases hlimit : limit < (t.extend name label).names.length
  · simp only [hlimit, dif_pos, forgetFirst, List.length_drop]
    omega
  · simp only [hlimit, dif_neg, not_false_eq_true]
    omega

theorem names_of_back? {t u : Timeline} (h : t.back? = some u) : u.names = t.names := by
  unfold back? at h
  split at h
  · cases h
    rfl
  · cases h

theorem names_of_forward? {t u : Timeline} (h : t.forward? = some u) : u.names = t.names := by
  unfold forward? at h
  split at h
  · cases h
    rfl
  · cases h

end Timeline

namespace Chronicle

theorem length_names_step (limit : Nat) (c : Chronicle) (op : Operation)
    (h : c.timeline.names.length ≤ limit) :
    (c.step limit op).1.timeline.names.length ≤ limit := by
  cases op with
  | edit e =>
    simp only [step]
    cases e.apply c.zoom c.timeline.current with
    | ok r => exact c.timeline.length_names_record limit r.name r.label h
    | error err => exact h
  | select target place =>
    rcases place with _ | _ | _ <;> exact h
  | setZoom zoom => exact h
  | undo =>
    simp only [step]
    cases hback : c.timeline.back? with
    | none => exact h
    | some t => simpa only [Timeline.names_of_back? hback] using h
  | redo =>
    simp only [step]
    cases hforward : c.timeline.forward? with
    | none => exact h
    | some t => simpa only [Timeline.names_of_forward? hforward] using h

theorem length_names_run (limit : Nat) (c : Chronicle) (ops : List Operation)
    (h : c.timeline.names.length ≤ limit) :
    (c.run limit ops).timeline.names.length ≤ limit := by
  induction ops generalizing c with
  | nil => exact h
  | cons op ops ih => exact ih _ (c.length_names_step limit op h)

end Chronicle

/-- A session is at every moment of every run what a timeline within its limit says: the label at
the cursor, the names up to it, whether there is anything to undo or redo, and the outcome of
whatever comes next. -/
theorem run_follows_timeline (limit : Nat) (label : Label) (ops : List Operation) :
    let s := (Session.start label limit).run ops
    let c := (Chronicle.start label).run limit ops
    s.label = c.timeline.current ∧
      s.history = c.timeline.names.take c.timeline.cursor ∧
      (s.canUndo ↔ 0 < c.timeline.cursor) ∧
      (s.canRedo ↔ c.timeline.cursor < c.timeline.names.length) ∧
      (s.step .undo).2 = .ok (.moved c.timeline.back?.isSome) ∧
      (s.step .redo).2 = .ok (.moved c.timeline.forward?.isSome) ∧
      (∀ op, (s.step op).2 = (c.step limit op).2) ∧
      s.past.length + s.future.length ≤ limit := by
  intro s c
  obtain ⟨hchronicle, hlimit⟩ := Session.chronicle_run (Session.start label limit) limit rfl ops
  have hc : s.chronicle = c := hchronicle
  have htimeline : s.timeline = c.timeline := congrArg Chronicle.timeline hc
  have houtcome (op : Operation) : (s.step op).2 = (c.step limit op).2 := by
    rw [← hc]
    exact congrArg Prod.snd (s.chronicle_step limit hlimit op)
  have hbound : c.timeline.names.length ≤ limit :=
    Chronicle.length_names_run limit (Chronicle.start label) ops (Nat.zero_le limit)
  refine ⟨?_, ?_, ?_, ?_, ?_, ?_, houtcome, ?_⟩
  · rw [← htimeline, s.current_timeline]
  · rw [← htimeline, s.history_eq_take]
  · rw [← htimeline, s.canUndo_iff]
  · rw [← htimeline, s.canRedo_iff]
  · rw [houtcome]
    simp only [Chronicle.step]
    cases c.timeline.back? <;> rfl
  · rw [houtcome]
    simp only [Chronicle.step]
    cases c.timeline.forward? <;> rfl
  · rw [← htimeline] at hbound
    simpa [Session.timeline] using hbound

end ThermalLabel.Editor
