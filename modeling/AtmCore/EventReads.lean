import AtmCore.TaskRowReads

/-! Reading an event row back. The writer of the ledger's events builds the typed states from the columns it
is about to store, with the outcome column belonging to whichever state is `complete`, and the decoder
joins the columns in the same way: what it stores decodes to what it returns. -/

namespace AtmCore

open Fallible List Option

@[simp] theorem parseEvent_asStr {event : TaskEventKind} : parseEvent event.asStr = .ok event := by
  cases event <;> rfl

@[simp] theorem parseOutcome_asStr {outcome : ReminderOutcome} : parseOutcome outcome.asStr = .ok outcome := by
  cases outcome <;> rfl

@[simp] theorem parseMarker_asStr {marker : TaskEventMarker} : parseMarker marker.asStr = .ok marker := by
  cases marker <;> rfl

@[simp] theorem decodeActor_val {actor : AgentName} : decodeActor actor.val = .ok (taskActor actor) := by
  unfold decodeActor taskActor
  split
  · rfl
  · simp [readParsed, pure, Except.pure]

theorem taskStateTagName_eq_complete_iff {tag : TaskStateTag} :
    taskStateTagName tag = "complete" ↔ tag = .complete := by
  cases tag <;> decide

variable {tag : Option TaskStateTag} {outcome : Option TaskCloseOutcome}

/-- The decoder joins the state columns of an event as its writer did. -/
theorem decodeEventState_eq :
    decodeEventState tag outcome = readParsed "task state" (taskEventState tag outcome) := by
  cases tag with
  | none => rfl
  | some tag =>
    have hoption : (if taskStateTagName tag = "complete" then outcome.map TaskCloseOutcome.asStr else none) =
        (if tag = .complete then outcome else none).map TaskCloseOutcome.asStr := by
      simp only [taskStateTagName_eq_complete_iff]
      split <;> rfl
    simp only [decodeEventState, taskEventState, map_some, mapM_some, hoption, parseState_eq]
    cases TaskState.fromParts tag (if tag = .complete then outcome else none) <;> rfl

/-- An event row whose state columns join decodes to its columns with the joined states. -/
theorem decodeEventRow_eq_ok {columns : TaskEventColumns} {fromState toState : Option TaskState}
    (hfrom : taskEventState columns.fromState columns.closeOutcome = .ok fromState)
    (hto : taskEventState columns.toState columns.closeOutcome = .ok toState) : decodeEventRow columns = .ok {
      team := columns.team
      taskId := columns.taskId
      assignee := columns.assignee
      seq := columns.seq
      instant := columns.instant
      event := columns.event
      fromState := fromState
      toState := toState
      actor := taskActor columns.actor
      messageId := columns.messageId
      outcome := columns.outcome
      marker := columns.marker
      detail := columns.detail } := by
  have hout : (columns.outcome.map ReminderOutcome.asStr).mapM parseOutcome = .ok columns.outcome := by
    cases columns.outcome <;> simp [pure, Except.pure]
  have hmark : (columns.marker.map TaskEventMarker.asStr).mapM parseMarker = .ok columns.marker := by
    cases columns.marker <;> simp [pure, Except.pure]
  unfold decodeEventRow
  simp only [Segment.parse_val, TaskId.parse_val, readParsed, Fallible.bind_ok, parseEvent_asStr,
    decodeEventState_eq, hfrom, hto, decodeActor_val, hout, hmark]
  rfl

/-- What was appended to the log is read back as what was reported. -/
def Reported (events events' : List TaskEventColumns) (rows : List TaskEventRow) : Prop :=
  ∃ appended, events' = events ++ appended ∧
    List.Forall₂ (fun columns row => decodeEventRow columns = .ok row) appended rows

theorem Reported.refl (events : List TaskEventColumns) : Reported events events [] :=
  ⟨[], (append_nil events).symm, .nil⟩

theorem Reported.trans {events events' events'' : List TaskEventColumns} {rows rows' : List TaskEventRow}
    (h : Reported events events' rows) (h' : Reported events' events'' rows') :
    Reported events events'' (rows ++ rows') := by
  obtain ⟨appended, rfl, hrows⟩ := h
  obtain ⟨appended', rfl, hrows'⟩ := h'
  exact ⟨appended ++ appended', by rw [append_assoc], rel_append hrows hrows'⟩

theorem taskEventState_cause {error : AtmError}
    (h : taskEventState tag outcome = .error error) : error.cause = none := by
  cases tag with
  | none => cases h
  | some tag =>
    have hparts : ∀ (tag : TaskStateTag) (outcome : Option TaskCloseOutcome) (error : AtmError),
        TaskState.fromParts tag outcome = .error error → error.cause = none := by
      intro tag outcome error herr
      cases tag <;> cases outcome <;> cases herr <;> rfl
    unfold taskEventState at h
    rw [mapM_some] at h
    cases hstate : TaskState.fromParts tag (if tag = .complete then outcome else none) with
    | ok state =>
      rw [hstate] at h
      cases h
    | error refused =>
      rw [hstate] at h
      cases h
      exact hparts _ _ _ hstate

theorem appendTaskEvent_spec (draft : TaskEventDraft) (events : List TaskEventColumns) :
    Ensures Fault.sparesQueueIndex
      (fun result => result.2 = events ++ [draft.columns (nextEventSeq events draft.team draft.taskId)] ∧
        Reported events result.2 [result.1]) (appendTaskEvent draft events) := by
  refine (ensures_lift (Q := fun state => taskEventState draft.fromState draft.closeOutcome = .ok state)
    (fun error h => ?_) (fun _ h => h)).bind (fun fromState hfrom => ?_)
  · simp [taskEventState_cause h]
  refine (ensures_lift (Q := fun state => taskEventState draft.toState draft.closeOutcome = .ok state)
    (fun error h => ?_) (fun _ h => h)).bind (fun toState hto => ?_)
  · simp [taskEventState_cause h]
  exact ⟨rfl, _, rfl, .cons (decodeEventRow_eq_ok hfrom hto) .nil⟩

end AtmCore
