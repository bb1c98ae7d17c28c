import AtmCore.EventReads
import AtmCore.LedgerAssign

/-! Each ledger operation of the writer is a step of the abstract ledger. `Represents` relates a database to
a ledger; `Advances` says that an operation took the ledger along steps of the given acts and reported
exactly the events it logged. No operation fails through the unique index over the positions. -/

namespace AtmCore

open Rows Fallible List Option Fault

/-- The tables of the database picture the ledger, and its events are the logs. -/
structure Represents (db : Db) (ledger : Ledger) : Prop where
  pictured : ledger.Pictured db.tasks
  log : ∀ key, ledger.log key = taskEventsOf db.taskEvents key.1 key.2

/-- Nothing of the task ledger differs. -/
structure SameLedger (db db' : Db) : Prop where
  tasks : db'.tasks = db.tasks
  events : db'.taskEvents = db.taskEvents

def WritesLedger (db db' : Db) : Prop := ∃ tasks events, db' = { db with tasks := tasks, taskEvents := events }

theorem SameLedger.refl (db : Db) : SameLedger db db := ⟨rfl, rfl⟩

variable {db db' db'' : Db} {ledger ledger' : Ledger} {tasks : TaskTable} {plan : List LedgerAct}
  {rows : List TaskEventRow} {record : Message} {taskId : TaskId} {row : Option TaskRow}

theorem SameLedger.trans (h : SameLedger db db') (h' : SameLedger db' db'') : SameLedger db db'' :=
  ⟨h'.tasks.trans h.tasks, h'.events.trans h.events⟩

theorem Represents.congr (h : Represents db ledger) (hsame : SameLedger db db') : Represents db' ledger where
  pictured := by
    rw [hsame.tasks]
    exact h.pictured
  log key := by
    rw [hsame.events]
    exact h.log key

variable {events : List TaskEventColumns}

theorem taskEventsOf_append {event : TaskEventColumns} {team : TeamName} :
    taskEventsOf (events ++ [event]) team taskId =
      taskEventsOf events team taskId ++ if event.team = team ∧ event.taskId = taskId then [event] else [] := by
  unfold taskEventsOf
  rw [filter_append]
  by_cases hteam : event.team = team <;> by_cases hid : event.taskId = taskId <;> simp [hteam, hid]

/-- Tables that picture the ledger's tasks and queues, with one more event in the log. -/
theorem Represents.append (h : Represents db ledger) (hpict : ledger'.Pictured tasks)
    (hlog : ledger'.log = ledger.log) (draft : TaskEventDraft) : Represents { db with
      tasks := tasks
      taskEvents := db.taskEvents ++ [draft.columns (nextEventSeq db.taskEvents draft.team draft.taskId)] }
      (ledger'.append draft) where
  pictured := hpict
  log key := by
    show Function.update ledger'.log _ _ key = _
    rw [taskEventsOf_append, hlog]
    by_cases hkey : key = (draft.team, draft.taskId)
    · subst hkey
      rw [Function.update_self, h.log, if_pos ⟨rfl, rfl⟩]
      rfl
    · rw [Function.update_of_ne hkey, h.log, if_neg, append_nil]
      rintro ⟨hteam, hid⟩
      exact hkey (Prod.ext hteam.symm hid.symm)

/-- The ledger went along steps of the plan, some of which may be left out, and the log grew by what was
reported. -/
structure Advances (plan : List LedgerAct) (db : Db) (ledger : Ledger) (db' : Db)
    (rows : List TaskEventRow) : Prop where
  path : ∃ acts ledger', acts.Sublist plan ∧ LedgerPath acts ledger ledger' ∧ Represents db' ledger'
  reported : Reported db.taskEvents db'.taskEvents rows

theorem Advances.of_same (h : Represents db ledger) (hsame : SameLedger db db') : Advances plan db ledger db' [] where
  path := ⟨[], ledger, nil_sublist plan, .refl ledger, h.congr hsame⟩
  reported := by
    rw [hsame.events]
    exact .refl _

variable {act : LedgerAct}

theorem Advances.of_step (hstep : LedgerStep act ledger ledger')
    (hrep : Represents db' ledger') (hreported : Reported db.taskEvents db'.taskEvents rows) :
    Advances [act] db ledger db' rows where
  path := ⟨[act], ledger', .refl [act], .single hstep, hrep⟩
  reported := hreported

theorem Advances.congr (h : Advances plan db ledger db' rows) (hsame : SameLedger db' db'') :
    Advances plan db ledger db'' rows where
  path := by
    obtain ⟨acts, ledger', hacts, hpath, hrep⟩ := h.path
    exact ⟨acts, ledger', hacts, hpath, hrep.congr hsame⟩
  reported := by
    rw [hsame.events]
    exact h.reported

theorem Advances.of_before (hsame : SameLedger db db') (h : Advances plan db' ledger db'' rows) :
    Advances plan db ledger db'' rows where
  path := h.path
  reported := by
    rw [← hsame.events]
    exact h.reported

theorem Advances.after {plan' acts : List LedgerAct} {rows' : List TaskEventRow} (hacts : acts.Sublist plan)
    (hpath : LedgerPath acts ledger ledger') (hreported : Reported db.taskEvents db'.taskEvents rows)
    (h : Advances plan' db' ledger' db'' rows') : Advances (plan ++ plan') db ledger db'' (rows ++ rows') := by
  obtain ⟨acts', ledger'', hacts', hpath', hrep⟩ := h.path
  exact ⟨⟨acts ++ acts', ledger'', hacts.append hacts', hpath.append hpath', hrep⟩, hreported.trans h.reported⟩

theorem Advances.of_append (h : Represents db ledger) (hpict : ledger'.Pictured tasks)
    (hlog : ledger'.log = ledger.log) {draft : TaskEventDraft}
    (hstep : LedgerStep act ledger (ledger'.append draft)) {row : TaskEventRow}
    (hevs : events = db.taskEvents ++ [draft.columns (nextEventSeq db.taskEvents draft.team draft.taskId)])
    (hrep : Reported db.taskEvents events [row]) :
    Advances [act] db ledger { db with tasks := tasks, taskEvents := events } [row] := by
  refine Advances.of_step hstep ?_ hrep
  rw [hevs]
  exact h.append hpict hlog draft

/-- The active tasks the source counts are those of the queue. -/
theorem otherActive_eq (h : ledger.Pictured tasks) (m : MemberKey) (taskId : TaskId) :
    otherActive tasks m.team m.agent taskId = ledger.othersActive m taskId := by
  have hperm := Ranked.perm (h.queued m)
  have hcount : ledger.othersActive m taskId = (openRows tasks m.team m.agent).countP
      (fun row => decide (ledger.stateOf (m.team, row.taskId) = some .active) && decide (row.taskId ≠ taskId)) := by
    rw [Ledger.othersActive, Ledger.others, countP_filter, ← hperm.countP_eq, countP_map]
    rfl
  rw [hcount, otherActive, ← countP_eq_length_filter, openRows, countP_filter]
  refine countP_congr (fun row hrow => ?_)
  simp only [Bool.and_eq_true, decide_eq_true_eq, TaskColumns.queuedFor_iff]
  constructor
  · rintro ⟨⟨⟨hteam, hto⟩, hstate⟩, hid⟩
    have hfind : tasks.find? (m.team, row.taskId) = some row := hteam ▸ Table.find?_key hrow
    refine ⟨⟨?_, hid⟩, hteam, hto, by simp [TaskColumns.isOpen, hstate]⟩
    rw [h.stateOf_eq, hfind, map_some, hstate]
  · rintro ⟨⟨hstate, hid⟩, hteam, hto, -⟩
    have hfind : tasks.find? (m.team, row.taskId) = some row := hteam ▸ Table.find?_key hrow
    rw [h.stateOf_eq, hfind, map_some] at hstate
    exact ⟨⟨⟨hteam, hto⟩, some.inj hstate⟩, hid⟩

theorem memberMaxTasks_spec {assignee : AgentName} {roster : Table RosterRow.member} :
    Ensures Fault.sparesQueueIndex (fun _ => True) (memberMaxTasks record assignee roster) := by
  unfold memberMaxTasks
  split
  · trivial
  · split
    · exact sparesQueueIndex_of_cause_none rfl
    · split
      · trivial
      · exact sparesQueueIndex_of_cause_none rfl

/-- A start that is not refused goes behind the active tasks of the member. -/
theorem rejectOverMaxTasks_spec (h : Represents db ledger) {row : TaskRow} : Ensures Fault.sparesQueueIndex
      (fun active => active = ledger.othersActive ⟨record.team, row.assignee⟩ taskId)
      (rejectOverMaxTasks record taskId row db) := by
  have hact := otherActive_eq h.pictured ⟨record.team, row.assignee⟩ taskId
  have hle : ledger.othersActive ⟨record.team, row.assignee⟩ taskId ≤
      (ledger.queue ⟨record.team, row.assignee⟩).length :=
    countP_le_length.trans (length_filter_le _ _)
  have hshort : (ledger.queue ⟨record.team, row.assignee⟩).length < 2 ^ 32 := Holds.short h.pictured _ id
  refine (memberMaxTasks_spec).bind (fun limit _ => ?_)
  split
  · exact sparesQueueIndex_of_cause_none rfl
  · show min _ _ = _
    rw [hact]
    omega

theorem loadStartableTask_spec : Ensures Fault.sparesQueueIndex
      (fun row => Loads tasks (record.team, taskId) (some row) ∧ row.state.isOpen = true ∧
        record.envelope.from = row.assignee) (loadStartableTask record taskId tasks) := by
  refine (loadTaskRow_spec).bind (fun row hload => ?_)
  cases row with
  | none => exact ensures_fail_new
  | some row =>
    dsimp only
    split
    · exact ensures_fail_new
    · next hopen =>
      split
      · exact ensures_fail_new
      · next hfrom => exact ⟨hload, by simpa using hopen, by simpa using hfrom⟩

theorem applyTaskStart_spec (h : Represents db ledger) {ambient : Ambient}
    (hsubj : record.Asks taskId (some .start)) : Ensures Fault.sparesQueueIndex
      (fun result => Advances [.message record] db ledger result.2.2 [result.2.1])
      (applyTaskStart ambient record taskId db) := by
  refine (loadStartableTask_spec).bind ?_
  rintro row ⟨hload, hopen, hfrom⟩
  split
  · exact ensures_fail_new
  next hinactive =>
  have hstate : row.state = .assigned := by
    cases hrow : row.state with
    | assigned => rfl
    | active => exact absurd hrow hinactive
    | complete outcome => rw [hrow] at hopen; cases hopen
  obtain ⟨columns, hfind, hdec⟩ := hload.decodes row rfl
  have htask : ledger.task (record.team, taskId) = some row.core := h.pictured.task_eq hload
  have htra : transition (some row.state) .started taskId record.envelope.from (some row.assignee)
      row.assignee = .ok .active := by
    rw [hstate]
    rfl
  rw [htra, Fallible.bind_ok]
  refine (rejectOverMaxTasks_spec h).bind (fun active hact => ?_)
  subst hact
  refine (startQueue_spec h.pictured hfind hdec ambient.rowOrder hstate _).bind (fun tasks hpict => ?_)
  refine (appendTaskEvent_spec _ db.taskEvents).bind ?_
  rintro ⟨event, events⟩ ⟨hevs, hrep⟩
  exact Advances.of_append h hpict rfl (LedgerStep.started record taskId row hsubj htask hstate hfrom) hevs hrep

variable {sender agent : AgentName}

/-- The state an assignment leads to, unless the task is open for the addressee already. -/
theorem transition_assigned (hother : ∀ old, openRow row = some old → old.assignee ≠ agent) :
    transition (row.map TaskRow.state) .assigned taskId sender (row.map TaskRow.assignee) agent = .ok .assigned := by
  cases row with
  | none => rfl
  | some row =>
    cases hstate : row.state with
    | assigned | complete => simp [transition, hstate]
    | active =>
      have hne : row.assignee ≠ agent := hother row (openRow_eq_some_iff.mpr ⟨rfl, by rw [hstate]; rfl⟩)
      simp [transition, hstate, hne]

theorem transition_assigned_isOk :
    ∃ state, transition (row.map TaskRow.state) .assigned taskId sender (row.map TaskRow.assignee) agent =
      .ok state := by
  cases row with
  | none => exact ⟨.assigned, rfl⟩
  | some row => cases hstate : row.state <;> exact ⟨_, by simp only [map_some, hstate, transition]; rfl⟩

variable {order : RowOrder} {messageId : AtmMessageId}

/-- An assignment of an open task to its assignee rewrites three columns of its row. -/
theorem refreshSameAssignment_of_open (h : ledger.Pictured tasks) {old : TaskRow}
    (hload : Loads tasks (record.team, taskId) (some old)) (hopen : old.state.isOpen = true)
    (hto : old.assignee = record.agent) : ∃ position tasks',
      refreshSameAssignment order record taskId (some old) messageId tasks = .ok (some (position, tasks')) ∧
      (ledger.setTask { old.core with
        assignmentMessageId := messageId
        description := record.envelope.text
        updatedAt := record.envelope.timestamp }).Pictured tasks' := by
  obtain ⟨columns, hfind, hdec⟩ := hload.decodes old rfl
  obtain ⟨p, rfl⟩ := hdec.exists_position
  obtain ⟨tasks', hrun, hpict⟩ := update_in_place h hfind (fun stored => { stored with
      assignmentMessageId := messageId
      description := record.envelope.text
      updatedAt := record.envelope.timestamp })
    (fun _ => rfl) rfl Iff.rfl rfl rfl
  refine ⟨(old.position.map QueuePosition.get).getD 1, tasks', ?_, hpict⟩
  have hfilter : (openRow (some old)).filter (fun row => decide (row.assignee = record.agent)) = some old := by
    rw [openRow_eq_some_iff.mpr ⟨rfl, hopen⟩]
    simp [hto]
  unfold refreshSameAssignment
  rw [hfilter]
  rw [hrun]
  rfl

theorem refreshSameAssignment_spec (h : Represents db ledger) (hsubj : record.Asks taskId none)
    (hload : Loads db.tasks (record.team, taskId) row)
    (hby : ∀ old, row = some old → record.envelope.from = old.assigner) :
    ∃ result, refreshSameAssignment order record taskId row messageId db.tasks = .ok result ∧
      (∀ position tasks, result = some (position, tasks) →
        Advances [.message record] db ledger { db with tasks := tasks } []) ∧
      (result = none → ∀ old, openRow row = some old → old.assignee ≠ record.agent) := by
  cases hfilter : (openRow row).filter (fun row => decide (row.assignee = record.agent)) with
  | none =>
    refine ⟨none, by rw [refreshSameAssignment, hfilter], by simp, fun _ old hold heq => ?_⟩
    rw [hold] at hfilter
    simp [heq] at hfilter
  | some old =>
    obtain ⟨hold, hto⟩ := filter_eq_some_iff.mp hfilter
    obtain ⟨rfl, hopen⟩ := openRow_eq_some_iff.mp hold
    obtain ⟨position, tasks', hrun, hpict⟩ := refreshSameAssignment_of_open h.pictured
      hload hopen (of_decide_eq_true hto)
    refine ⟨some (position, tasks'), hrun, ?_, by simp⟩
    intro _ tasks heq
    cases heq
    exact Advances.of_step (LedgerStep.refreshed record taskId messageId old hsubj
      (h.pictured.task_eq hload) hopen (of_decide_eq_true hto) (hby old rfl))
      ⟨hpict, h.log⟩ (.refl _)

variable {ids : List TaskId}

theorem normalizedPosition_spec :
    Ensures Fault.sparesQueueIndex (fun position => ∃ index, ids.findIdx? (· = taskId) = some index ∧
      position = index + 1) (normalizedPosition ids taskId) := by
  unfold normalizedPosition
  cases hfilter : (ids.findIdx? (· = taskId)).filter (fun index => decide (index + 1 < 2 ^ 32)) with
  | none => exact ensures_fail_new
  | some index => exact ⟨index, (filter_eq_some_iff.mp hfilter).1, rfl⟩

theorem findIdx?_insertIdx {index : Nat} (hidx : index ≤ ids.length)
    (hnotin : taskId ∉ ids) : (ids.insertIdx index taskId).findIdx? (· = taskId) = some index := by
  rw [findIdx?_eq_some_iff_getElem]
  have hlen := length_insertIdx_of_le_length hidx taskId
  refine ⟨by omega, by simp, fun j hj => ?_⟩
  rw [getElem_insertIdx_of_lt hj]
  have hmem : ids[j] ∈ ids := getElem_mem _
  simp only [decide_eq_true_eq]
  exact fun heq => hnotin (heq ▸ hmem)

theorem assignEvents_spec (h : Represents db ledger) (hpict : ledger'.Pictured tasks)
    (hlog : ledger'.log = ledger.log) (record : Message) (taskId : TaskId) (placement : Option MoveTarget)
    (row : Option TaskRow) (messageId : AtmMessageId) (position : Nat) : Ensures Fault.sparesQueueIndex
      (fun result => Reported db.taskEvents result.2 result.1 ∧
        Represents { db with tasks := tasks, taskEvents := result.2 } (match placement with
          | none => ledger'.append (assignmentDraft record taskId row messageId .assigned)
          | some _ => (ledger'.append (assignmentDraft record taskId row messageId .assigned)).append
              (placementDraft record taskId row messageId .assigned position)))
      (assignEvents record taskId placement row messageId .assigned position db.taskEvents) := by
  refine (appendTaskEvent_spec _ db.taskEvents).bind ?_
  rintro ⟨event, events⟩ ⟨hevs, hreported⟩
  simp only at hevs hreported
  have hrep := h.append hpict hlog (assignmentDraft record taskId row messageId .assigned)
  cases placement with
  | none =>
    refine ⟨hreported, ?_⟩
    simp only [hevs]
    exact hrep
  | some target =>
    refine (appendTaskEvent_spec _ events).bind ?_
    rintro ⟨moved, events'⟩ ⟨hevs', hreported'⟩
    simp only at hevs' hreported'
    refine ⟨hreported.trans hreported', ?_⟩
    simp only [hevs', hevs]
    exact hrep.append hrep.pictured rfl (placementDraft record taskId row messageId .assigned position)

theorem persistTaskAssignment_spec (h : Represents db ledger) {placement : Option MoveTarget}
    (hsubj : record.Asks taskId none) (hload : Loads db.tasks (record.team, taskId) row)
    (hby : ∀ old, row = some old → record.envelope.from = old.assigner)
    (hother : ∀ old, openRow row = some old → old.assignee ≠ record.agent) :
    Ensures Fault.sparesQueueIndex (fun result => Advances [.message record] db ledger result.2.2 result.2.1)
      (persistTaskAssignment order record taskId placement row messageId .assigned db) := by
  refine (assignQueues_spec h.pictured hload hother).bind ?_
  rintro ⟨ids, tasks⟩ ⟨index, hpl, hidx, hids, hpict⟩
  simp only at hids hpict
  refine (normalizedPosition_spec).bind ?_
  rintro position ⟨found, hf, rfl⟩
  have hfoundIndex : found = index := by
    rw [hids, findIdx?_insertIdx hidx (by simp [Ledger.others])] at hf
    exact (some.inj hf).symm
  subst hfoundIndex
  refine (assignEvents_spec h hpict ?_ record taskId placement row messageId (found + 1)).bind ?_
  · unfold Ledger.release
    split <;> rfl
  rintro ⟨rows, events⟩ ⟨hreported, hrep⟩
  refine Advances.of_step (LedgerStep.assigned record taskId messageId row placement found hsubj
    (h.pictured.task_eq hload) hby (fun old hold hopen =>
      hother old (openRow_eq_some_iff.mpr ⟨hold, hopen⟩)) hpl) ?_ hreported
  cases placement <;> exact hrep

end AtmCore
