import AtmCore.StoreRuns

/-! The log of a task tells its row. Replaying the events of a task in their order, with the events that
only report something passed over, gives its state, outcome and assignee; each event names the state
it found; and the numbers run from 1 without a gap. This is an invariant of the steps of the ledger. -/

namespace AtmCore

open Rows Fallible List

structure Standing where
  state : TaskStateTag
  closeOutcome : Option TaskCloseOutcome
  assignee : AgentName
  deriving DecidableEq

def TaskColumns.standing (row : TaskColumns) : Standing := ⟨row.state, row.closeOutcome, row.assignee⟩

/-- The kinds of events that leave the task as it is. -/
def TaskEventKind.neutral : TaskEventKind → Bool
  | moved | rejected | reminded | leadNotified | remindersReset => true
  | assigned | acked | started | completed | refused | cancelled | reassigned | reopened | migrated => false

/-- The state an event leads to. The outcome of an event belongs to its complete state. -/
def TaskEventColumns.standing (e : TaskEventColumns) : Option Standing :=
  e.toState.map (fun tag => ⟨tag, if tag = .complete then e.closeOutcome else none, e.assignee⟩)

def replayEvent (reached : Option Standing) (e : TaskEventColumns) : Option Standing :=
  if e.event.neutral then reached else e.standing

def replay (events : List TaskEventColumns) : Option Standing := events.foldl replayEvent none

variable {events : List TaskEventColumns} {e : TaskEventColumns}

@[simp] theorem replay_append : replay (events ++ [e]) = replayEvent (replay events) e := by
  simp [replay]

/-- The log tells the row. -/
structure Replays (events : List TaskEventColumns) (row : Option TaskColumns) : Prop where
  reached : replay events = row.map TaskColumns.standing
  continued : ∀ before e after, events = before ++ e :: after →
    e.fromState = (replay before).map Standing.state
  numbered : events.map TaskEventColumns.seq = range' 1 events.length

theorem Replays.nil : Replays [] none where
  reached := rfl
  continued before e after h := by simp at h
  numbered := rfl

variable {draft : TaskEventDraft} {ledger ledger' : Ledger} {db : Db}

/-- One more event: it names the state it finds, and what it leads to is the row after it. -/
theorem Replays.append {row row' : Option TaskColumns} (h : Replays events row)
    (hfrom : draft.fromState = row.map TaskColumns.state)
    (hto : ∀ seq, replayEvent (row.map TaskColumns.standing) (draft.columns seq) = row'.map TaskColumns.standing) :
    Replays (events ++ [draft.columns ((events.map TaskEventColumns.seq).foldr max 0 + 1)]) row' where
  reached := by
    rw [replay_append, h.reached, hto]
  continued before e after heq := by
    rcases eq_nil_or_concat after with rfl | ⟨init, last, rfl⟩
    · obtain ⟨hbefore, he⟩ := append_inj' heq rfl
      rw [← hbefore, h.reached, Option.map_map, ← singleton_inj.mp he]
      exact hfrom
    · rw [concat_eq_append, ← cons_append, ← append_assoc] at heq
      exact h.continued before e init (append_inj' heq rfl).1
  numbered := by
    rw [map_append, h.numbered, foldr_max_range', length_append, length_singleton,
      range'_concat]
    simp [TaskEventDraft.columns, Nat.add_comm]

/-- Every task stands under its own key, and every log tells its task. -/
structure Ledger.Told (ledger : Ledger) : Prop where
  keyed : ∀ key row, ledger.task key = some row → row.key = key
  replays : ∀ key, Replays (ledger.log key) (ledger.task key)

theorem Ledger.Told.empty : Ledger.Told .empty where
  keyed key row h := by cases h
  replays key := .nil

variable {key : TaskKey} {world : World} {ambient : Ambient}

section

variable (h : ledger.Told) (hlog : ledger'.log = ledger.log)
include h hlog

/-- A step that sets at most the task of its event, and logs it. -/
theorem Ledger.Told.append (hkey : (draft.team, draft.taskId) = key)
    (hframe : ∀ k, k ≠ key → ledger'.task k = ledger.task k)
    (hkeyed : ∀ row, ledger'.task key = some row → row.key = key)
    (hfrom : draft.fromState = (ledger.task key).map TaskColumns.state)
    (hto : ∀ seq, replayEvent ((ledger.task key).map TaskColumns.standing) (draft.columns seq) =
      (ledger'.task key).map TaskColumns.standing) :
    (ledger'.append draft).Told where
  keyed k row hrow := by
    by_cases hk : k = key
    · subst hk
      exact hkeyed row hrow
    · rw [Ledger.append_task, hframe k hk] at hrow
      exact h.keyed k row hrow
  replays k := by
    show Replays (Function.update ledger'.log _ _ k) (ledger'.task k)
    rw [hlog, hkey]
    by_cases hk : k = key
    · subst hk
      rw [Function.update_self]
      exact (h.replays k).append hfrom hto
    · rw [Function.update_of_ne hk, hframe k hk]
      exact h.replays k

theorem Ledger.Told.note (htask : ledger'.task = ledger.task) (hneutral : draft.event.neutral = true)
    (hfrom : draft.fromState = (ledger.task (draft.team, draft.taskId)).map TaskColumns.state) :
    (ledger'.append draft).Told := by
  refine h.append hlog rfl (fun k _ => by rw [htask]) (fun row hrow => ?_) hfrom (fun seq => ?_)
  · rw [htask] at hrow
    exact h.keyed _ row hrow
  · rw [htask]
    exact if_pos hneutral

theorem Ledger.Told.set (row : TaskColumns) (htask : ledger'.task = (ledger.setTask row).task)
    (hkey : (draft.team, draft.taskId) = row.key)
    (hfrom : draft.fromState = (ledger.task row.key).map TaskColumns.state)
    (hto : ∀ seq, replayEvent ((ledger.task row.key).map TaskColumns.standing) (draft.columns seq) =
      some row.standing) : (ledger'.append draft).Told := by
  refine h.append hlog hkey (fun k hk => ?_) (fun row' hrow => ?_) hfrom (fun seq => ?_)
  · rw [htask, Ledger.setTask_task_of_ne _ hk]
  · rw [htask, Ledger.setTask_task_self _ rfl] at hrow
    cases hrow
    rfl
  · rw [htask, Ledger.setTask_task_self _ rfl]
    exact hto seq

theorem Ledger.Told.reset (row : TaskColumns) (htask : ledger'.task = (ledger.setTask row).task)
    (hstanding : (ledger.task row.key).map TaskColumns.standing = some row.standing) : ledger'.Told where
  keyed k row' hrow := by
    rw [htask] at hrow
    by_cases hk : k = row.key
    · subst hk
      rw [Ledger.setTask_task_self _ rfl] at hrow
      cases hrow
      rfl
    · rw [Ledger.setTask_task_of_ne _ hk] at hrow
      exact h.keyed k row' hrow
  replays k := by
    rw [hlog, htask]
    by_cases hk : k = row.key
    · subst hk
      rw [Ledger.setTask_task_self _ rfl]
      exact { h.replays row.key with reached := (h.replays row.key).reached.trans hstanding }
    · rw [Ledger.setTask_task_of_ne _ hk]
      exact h.replays k

end

theorem replayEvent_of_setting {reached : Option Standing}
    (h : e.event.neutral = false) : replayEvent reached e = e.standing := by
  rw [replayEvent, if_neg (by rw [h]; exact Bool.false_ne_true)]

theorem assignmentEventKind_neutral {row : Option TaskRow} : (assignmentEventKind row).neutral = false := by
  cases row with
  | none => rfl
  | some row =>
    unfold assignmentEventKind
    dsimp only
    split <;> rfl

theorem closeEventKind_neutral {outcome : TaskCloseOutcome} : (closeEventKind outcome).neutral = false := by
  cases outcome <;> rfl

theorem LedgerStep.told {act : LedgerAct} {first second : Ledger} (hstep : LedgerStep act first second)
    (h : first.Told) : second.Told := by
  cases hstep with
  | refreshed record taskId messageId row hsubj hrow hopen hasg hby =>
    have hkey : row.core.key = (record.team, taskId) := h.keyed _ _ hrow
    refine h.reset rfl _ rfl ?_
    show (first.task row.core.key).map _ = _
    rw [hkey, hrow]
    rfl
  | assigned record taskId messageId row placement index hsubj hrow hby hother hpl =>
    have hself : (Ledger.setTask (first.release record taskId row)
        (assignedColumns record taskId messageId)).task (record.team, taskId) =
        some (assignedColumns record taskId messageId) :=
      Ledger.setTask_task_self _ rfl
    have hassigned : ((((first.release record taskId row).setTask
        (assignedColumns record taskId messageId)).enter ⟨record.team, record.agent⟩ taskId index).append
        (assignmentDraft record taskId row messageId .assigned)).Told := by
      refine h.set (by simp) (assignedColumns record taskId messageId) (by simp [Ledger.setTask]) rfl ?_
        (fun seq => ?_)
      · show row.map (fun row => row.state.tag) = (first.task (record.team, taskId)).map _
        rw [hrow, Option.map_map]
        rfl
      · rw [replayEvent_of_setting (assignmentEventKind_neutral)]
        rfl
    cases placement with
    | none => exact hassigned
    | some target =>
      refine hassigned.note (by rfl) (by rfl) (by rfl) ?_
      show some TaskStateTag.assigned = Option.map _ (Ledger.task (Ledger.setTask _ _) (record.team, taskId))
      rw [hself]
      rfl
  | started record taskId row hsubj hrow hstate hasg =>
    have hkey : row.core.key = (record.team, taskId) := h.keyed _ _ hrow
    refine h.set (by rfl) { row.core with
      state := .active
      leadNotifiedCount := 0
      updatedAt := record.envelope.timestamp } (by rfl) hkey.symm ?_ (fun seq => ?_)
    · show some row.state.tag = (first.task row.core.key).map _
      rw [hkey, hrow]
      rfl
    · rw [replayEvent_of_setting (by rfl)]
      show some _ = some (Standing.mk _ row.state.closeOutcome _)
      rw [hstate]
      rfl
  | closed record taskId row outcome reason hsubj hrow hopen hparties =>
    have hkey : row.core.key = (record.team, taskId) := h.keyed _ _ hrow
    refine h.set (by rfl) { row.core with
      state := .complete
      closeOutcome := some outcome
      updatedAt := record.envelope.timestamp } (by rfl) hkey.symm ?_ (fun seq => ?_)
    · show some row.state.tag = (first.task row.core.key).map _
      rw [hkey, hrow]
      rfl
    · rw [replayEvent_of_setting (closeEventKind_neutral)]
      rfl
  | moved team taskId actor target instant row fromPosition toPosition index hrow
  | kept team taskId actor instant row position hrow =>
    refine h.note (by rfl) (by rfl) (by rfl) ?_
    show some row.state.tag = (first.task (team, taskId)).map _
    rw [hrow]
    rfl
  | refused act draft row hrow hdraft =>
    refine h.note rfl rfl (by rw [hdraft.event]; rfl) ?_
    rw [hdraft.fromState, hrow, Option.map_map]
    rfl
  | reminder write member taskId row hrow =>
    have hkey : row.core.key = (member.team, taskId) := h.keyed _ _ hrow
    have hchanged : ∀ changed, (changed = row.core ∨ changed = write.change row.core) →
        changed.key = row.core.key ∧ changed.standing = row.core.standing := by
      rintro changed (rfl | rfl)
      · exact ⟨rfl, rfl⟩
      · cases write <;> exact ⟨rfl, rfl⟩
    obtain ⟨hsame, hstanding⟩ := hchanged
      (if row.assignee = member.agent then write.change row.core else row.core) (by
        split
        · exact .inr rfl
        · exact .inl rfl)
    refine h.set (by rfl) _ (by rfl) ?_ ?_ (fun seq => ?_)
    · rw [hsame, hkey]
      rfl
    · rw [hsame, hkey, hrow]
      rfl
    · rw [hsame, hkey, hrow, hstanding]
      cases write <;> rfl

/-- The log is as it was, and the task stands as it stood. -/
def Unmoved (key : TaskKey) (db db' : Db) : Prop :=
  db'.taskEvents = db.taskEvents ∧
    (db'.tasks.find? key).map TaskColumns.standing = (db.tasks.find? key).map TaskColumns.standing

variable {db' : Db}

theorem SameLedger.unmoved (h : SameLedger db db') : Unmoved key db db' := ⟨h.events, by rw [h.tasks]⟩

theorem Unmoved.trans {db'' : Db} (h : Unmoved key db db') (h' : Unmoved key db' db'') : Unmoved key db db'' :=
  ⟨h'.1.trans h.1, h'.2.trans h.2⟩

theorem Represents.standing (h : Represents db ledger) (key : TaskKey) :
    (ledger.task key).map TaskColumns.standing = (db.tasks.find? key).map TaskColumns.standing := by
  rw [← Holds.core h.pictured, Option.map_map]
  rfl

section Resend

variable {db : Db} {ledger : Ledger} {record : Message} {taskId : TaskId} {columns : TaskColumns}
  (h : Represents db ledger) (hsubj : record.envelope.taskId = some taskId) (hop : record.envelope.taskOp = none)
  (hfind : db.tasks.find? (record.team, taskId) = some columns) (hopen : columns.isOpen = true)
  (hto : columns.assignee = record.agent)
include h hsubj hop hfind hopen hto

/-- A message that assigns an open task to its assignee once more refreshes its row, or is a report. -/
theorem applyTaskMessage_of_resend (upsert : Message → Db → Outcome Db) :
    Returns (fun result => Unmoved (record.team, taskId) db result.2)
      (applyTaskMessage world upsert ambient record db) := by
  unfold applyTaskMessage
  simp only [hsubj, hop]
  refine .skip (fun report => ?_)
  split
  · exact (SameLedger.refl db).unmoved
  refine Ensures.bind (P := fun result => Unmoved (record.team, taskId) db result.2) ?_ ?_
  · unfold applyTaskAssignment
    refine (loadTaskRow_spec).returns.bind (fun row hload => ?_)
    refine .skip (fun nextState => ?_)
    cases record.envelope.messageId with
    | none => trivial
    | some messageId =>
      obtain ⟨old, rfl, hdec⟩ := hload.of_find? hfind
      obtain ⟨position, tasks', hrun, hpict⟩ :=
        refreshSameAssignment_of_open h.pictured hload (hdec.isOpen ▸ hopen) (hdec.assignee ▸ hto)
      dsimp only
      rw [hrun]
      refine ⟨rfl, ?_⟩
      have hkey : old.core.key = (record.team, taskId) :=
        (congrArg TaskColumns.key hdec.core).trans (Table.key_of_find? hfind :)
      have hrep : Represents { db with tasks := tasks' } (ledger.setTask { old.core with
          assignmentMessageId := messageId
          description := record.envelope.text
          updatedAt := record.envelope.timestamp }) := ⟨hpict, h.log⟩
      have hself := Ledger.setTask_task_self ledger (show TaskColumns.key { old.core with
          assignmentMessageId := messageId
          description := record.envelope.text
          updatedAt := record.envelope.timestamp } = (record.team, taskId) from hkey)
      rw [← h.standing, ← hrep.standing, hself, h.pictured.task_eq hload]
      rfl
  · rintro ⟨applied, db'⟩ hunmov
    exact hunmov

theorem upsertMessage_of_resend {provenance : MessageWriteOrigin} :
    Returns (fun result => Unmoved (record.team, taskId) db result.2)
      (upsertMessage world ambient record provenance db) := by
  refine .skip (fun _ => ?_)
  refine (insertMessageCanonical_sameLedger).returns.bind ?_
  rintro ⟨inserted, db'⟩ hsame
  cases inserted with
  | false => exact .skip (fun existing => hsame.unmoved)
  | true =>
    dsimp only
    split
    · have hfind' : db'.tasks.find? (record.team, taskId) = some columns := by rw [hsame.tasks, hfind]
      refine (applyTaskMessage_of_resend (h.congr hsame) hsubj hop hfind' hopen hto _).bind ?_
      rintro ⟨result, db''⟩ hunmov
      exact (hsame.unmoved).trans hunmov
    · exact hsame.unmoved

/-- Through either admission. -/
theorem execute_of_resend {op : WriteOp} (hadmits : op.admits = some record) :
    Returns (fun result => Unmoved (record.team, taskId) db result.2) (execute world ambient op db) := by
  cases op with
  | upsertMessage message provenance =>
    cases hadmits
    refine (upsertMessage_of_resend h hsubj hop hfind hopen hto).bind ?_
    rintro ⟨result, db'⟩ hunmov
    exact hunmov
  | admitTemplateMessage admission =>
    cases hadmits
    refine Ensures.bind (P := fun result => Unmoved (admission.record.team, taskId) db result.2) ?_ ?_
    · unfold executeAdmitTemplateMessage
      refine .skip (fun _ => ?_)
      refine (upsertMessage_of_resend h hsubj hop hfind hopen hto).bind ?_
      rintro ⟨result, db'⟩ hunmov
      dsimp only
      split
      · refine (executeDecomposedMessageAdmission_spec world admission.decomposition db').returns.bind ?_
        rintro ⟨outcome, db''⟩ hsame
        exact hunmov.trans (hsame.unmoved)
      · exact hunmov
    · rintro ⟨result, db'⟩ hunmov
      exact hunmov
  | _ => cases hadmits

end Resend

theorem Represents.replays (h : Represents db ledger) (htold : ledger.Told) (team : TeamName) (taskId : TaskId) :
    Replays (taskEventsOf db.taskEvents team taskId) (db.tasks.find? (team, taskId)) := by
  have hreplays := htold.replays (team, taskId)
  rw [h.log] at hreplays
  exact { hreplays with reached := hreplays.reached.trans (h.standing _) }

/-- In every state of a run from an empty ledger the log of every task replays to its row, every event
names the state reached before it, and the numbers are `1..k`; and an accepted assignment of an open
task to its assignee logs nothing and leaves state, outcome and assignee. -/
theorem logs_replay (world : World) (ops : List StoreOp) (db : Db) :
    let reached := run world ops db.withoutTasks
    (∀ team taskId, Replays (taskEventsOf reached.taskEvents team taskId) (reached.tasks.find? (team, taskId))) ∧
    (∀ (op : WriteOp) (record : Message) (taskId : TaskId) (row : TaskColumns), op.admits = some record →
      record.envelope.taskId = some taskId → record.envelope.taskOp = none →
      reached.tasks.find? (record.team, taskId) = some row → row.isOpen = true →
      row.assignee = record.agent →
      ∀ ambient result after, execute world ambient op reached = .ok (result, after) →
        after.taskEvents = reached.taskEvents ∧
        (after.tasks.find? (record.team, taskId)).map TaskColumns.standing = some row.standing) := by
  intro reached
  obtain ⟨acts, ledger, hpath, hrep⟩ := run_represents
  have htold : ledger.Told := hpath.invariant (fun hstep h => hstep.told h) .empty
  refine ⟨hrep.replays htold, ?_⟩
  intro op record taskId row hadmits hsubject hop hfind hopen hassignee ambient result after hrun
  obtain ⟨hevents, hstanding⟩ := (execute_of_resend hrep hsubject hop hfind hopen hassignee hadmits).of_eq_ok hrun
  exact ⟨hevents, hstanding.trans (congrArg _ hfind)⟩

end AtmCore
