import AtmCore.QueueWake
import AtmCore.RejectionAudit

/-! What one turn of the pump can do. An escalation mail has no task and leaves the ledger alone; a bookkeeping write
changes the reminder columns of one row in place, so every queue keeps its order. From these, `turn_cases` says what
becomes of the pump in the turn of one member. -/

namespace AtmCore

open Rows Fallible List Option Table

variable {ambient : Ambient} {record : Message} {provenance : MessageWriteOrigin} {db : Db} {tasks : TaskTable}
  {columns : TaskColumns} {team : TeamName} {member : MemberKey} {row : TaskRow}

section Mail

variable {world : World} {port : RenderPort}

section

variable (htask : record.envelope.taskId = none)
include htask

theorem upsertMessage_untasked :
    Returns (fun result => SameLedger db result.2) (upsertMessage world ambient record provenance db) := by
  rw [upsertMessage, executeUpsertMessage, admitMessage]
  refine .skip (fun _ => ?_)
  refine (insertMessageCanonical_sameLedger).returns.bind ?_
  rintro ⟨inserted, written⟩ hsame
  cases inserted with
  | false => exact .skip (fun _ => hsame)
  | true =>
    dsimp only
    split
    · rw [applyTaskMessage, htask]
      exact hsame
    · exact hsame

/-- A message without a task leaves the ledger alone, whether it is admitted or not. -/
theorem processQueuedWrite_untasked :
    SameLedger db (processQueuedWrite world ⟨.upsertMessage record provenance, ambient⟩ db).2 := by
  have hsubj : rejectedEventSubject (.upsertMessage record provenance) db = .ok none := by
    rw [rejectedEventSubject, htask]
    split <;> rfl
  rw [processQueuedWrite]
  split
  · next result written hrun =>
    obtain ⟨upserted, hupserted, hrun⟩ := bind_eq_ok.mp hrun
    cases hrun
    exact (upsertMessage_untasked htask).of_eq_ok hupserted
  · exact .refl db
  · split
    · next error hrun event audited haudit =>
      rw [appendRejectedTaskEvent_of_no_subject hsubj] at haudit
      cases haudit
      exact .refl db
    · exact .refl db
    · exact .refl db

theorem submitMessageAdmission_untasked :
    SameLedger db (submitMessageAdmission world ambient record provenance db).2 := by
  rw [submitMessageAdmission]
  split
  · exact .refl db
  · exact processQueuedWrite_untasked htask

end

/-- A send without a task and without a parent leaves the ledger alone. -/
theorem persistSendMessage_untasked {input : SendInput} {seen : Db} (htask : input.request.taskId = none)
    (hpar : input.request.parentMessageId = none) (hmode : input.request.threadMode = none) :
    SameLedger db (persistSendMessage world port input seen db).2 := by
  have htask' : input.envelope.taskId = none := by
    rw [SendInput.envelope, addressedEnvelope]
    split <;> exact htask
  have hprep : ∀ inbox, prepareThreadedMessage input.envelope inbox = .ok input.envelope := by
    have hpar' : input.envelope.parentMessageId = none := by
      rw [SendInput.envelope, addressedEnvelope]
      split <;> exact hpar
    have hmode' : input.envelope.threadMode = none := by
      rw [SendInput.envelope, addressedEnvelope]
      split <;> exact hmode
    intro inbox
    rw [prepareThreadedMessage, hpar', hmode']
  rw [persistSendMessage]
  split
  · exact .refl db
  · rw [persistMessage]
    split
    · exact .refl db
    · next prepared h =>
      obtain ⟨inbox, -, h⟩ := bind_eq_ok.mp h
      obtain rfl := Except.ok.inj ((hprep inbox).symm.trans h)
      rw [mirrorMessageToStore]
      split
      · exact .refl db
      · exact submitMessageAdmission_untasked htask'

variable (inputs : EscalationInputs)

theorem writeEscalationMail_sameLedger (terminal : Bool) (team : TeamName)
    (recipient : AgentAddress) (summary : String) (db : Db) :
    SameLedger db (writeEscalationMail world port inputs terminal team recipient summary db).2 := by
  have hpersist : ∀ (input : SendInput), input.request = escalationRequest terminal team recipient inputs.body →
      SameLedger db (Send.persist world port ⟨.sync, input⟩ db db).2 := by
    intro input hreq
    have hval : validateTaskRequest input.request = .ok input.request := by
      rw [hreq]
      rfl
    rw [Send.persist]
    rw [hval]
    dsimp only
    rw [if_neg (by rw [hreq]; exact fun h => by cases h)]
    exact persistSendMessage_untasked (by rw [hreq]; rfl) (by rw [hreq]; rfl) (by rw [hreq]; rfl)
  rw [writeEscalationMail]
  split
  · exact .refl db
  · dsimp only
    split <;> exact hpersist _ rfl

theorem writeToEscalationRecipients_sameLedger (team : TeamName) (summary : String)
    (since : Option IsoTimestamp) (recipients : List AgentAddress) (outcome : EscalationOutcome) (db : Db) :
    SameLedger db (writeToEscalationRecipients world port inputs team summary since recipients outcome db).2 := by
  fun_induction writeToEscalationRecipients world port inputs team summary since recipients outcome db with
  | case1 => exact .refl _
  | case2 _ _ _ _ _ ih => exact ih
  | case3 _ _ _ _ _ _ _ _ ih | case4 _ _ _ _ _ _ _ _ ih => exact (writeEscalationMail_sameLedger ..).trans ih

theorem writeTerminalEscalations_sameLedger (team : TeamName) (summary : String)
    (startedAt : IsoTimestamp) (recipients : List AgentAddress) (outcome : EscalationOutcome) (db : Db) :
    SameLedger db (writeTerminalEscalations world port inputs team summary startedAt recipients outcome db).2 := by
  fun_induction writeTerminalEscalations world port inputs team summary startedAt recipients outcome db with
  | case1 | case2 => exact .refl _
  | case3 _ _ _ _ _ _ _ ih => exact ih
  | case4 _ _ _ _ _ _ _ _ _ _ ih | case5 _ _ _ _ _ _ _ _ _ _ ih => exact (writeEscalationMail_sameLedger ..).trans ih

theorem escalateMail_sameLedger (member : MemberKey) (kind : EscalationKind)
    (task : Option TaskId) (since : Option IsoTimestamp) (db : Db) :
    SameLedger db (escalateMail world port inputs member kind task since db).2 := by
  rw [escalateMail]
  split
  · exact .refl db
  · exact .refl db
  · exact writeToEscalationRecipients_sameLedger ..

theorem escalateEpisodeMail_sameLedger (runtime : Option MemberRuntime) (member : MemberKey)
    (kind : EpisodeKind) (since : IsoTimestamp) (db : Db) :
    SameLedger db (escalateEpisodeMail world port inputs runtime member kind since db).2 := by
  rw [escalateEpisodeMail]
  split
  · exact .refl db
  · exact .refl db
  · unfold writeTerminalEpisode
    split
    · exact .refl db
    · split
      · exact .refl db
      · split
        · exact .refl db
        · split
          · exact .refl db
          · exact .refl db
          · exact writeTerminalEscalations_sameLedger ..

end Mail

variable {what : String} {tasks' : TaskTable} {set : TaskColumns → TaskColumns} {result : TaskEventRow × Db}

section Bookkeeping

variable {order : RowOrder} {member : MemberKey} {taskId : TaskId} {db db' : Db} {write : ReminderWrite}
  {event : TaskEventRow}

/-- What a bookkeeping write does to a row: nothing, unless it is the row it is for. -/
def ReminderWrite.on (write : ReminderWrite) (member : MemberKey) (taskId : TaskId) (row : TaskColumns) : TaskColumns :=
  if row.key = (member.team, taskId) ∧ row.assignee = member.agent then write.change row else row

theorem ReminderWrite.on_eq_or (write : ReminderWrite) {row : TaskColumns} :
    write.on member taskId row = write.change row ∨ write.on member taskId row = row := by
  rw [ReminderWrite.on]
  split
  · exact .inl rfl
  · exact .inr rfl

/-- An `UPDATE` that succeeds has changed the rows it selects. -/
theorem updateTasks_eq_ok {selects : TaskColumns → Bool} {hset : ∀ row, (set row).key = row.key}
    (h : updateTasks order what tasks selects set hset = .ok tasks') :
    tasks'.rows = tasks.rows.map (fun row => if selects row then set row else row) := by
  rw [updateTasks] at h
  split at h
  · next updated hupd =>
    cases h
    have hperm := order.perm tasks ((tasks.rows.filter selects).map TaskColumns.key)
    have hnd : ((tasks.rows.filter selects).map TaskColumns.key).Nodup :=
      tasks.nodup.sublist (filter_sublist.map _)
    rw [updateRows_eq_ok hset (hperm.nodup_iff.mpr hnd) hupd, mapKeys_perm _ hperm,
      Table.mapKeys, mapRows_rows]
    refine map_congr_left (fun row hrow => ?_)
    have hmem : row.key ∈ (tasks.rows.filter selects).map TaskColumns.key ↔ selects row = true := by
      rw [List.mem_map]
      constructor
      · rintro ⟨other, hother, hkey⟩
        obtain ⟨hother, hsel⟩ := mem_filter.mp hother
        exact tasks.eq_of_key_eq hother hrow hkey ▸ hsel
      · exact fun hsel => ⟨row, mem_filter.mpr ⟨hrow, hsel⟩, rfl⟩
    by_cases hsel : selects row = true
    · rw [if_pos (hmem.mpr hsel), if_pos hsel]
    · rw [if_neg (fun h => hsel (hmem.mp h)), if_neg hsel]
  · cases h

theorem recordOnTask_eq_ok {missing : String} {hset : ∀ row, (set row).key = row.key}
    {append : TaskState → List TaskEventColumns → TaskEventRow × List TaskEventColumns}
    (h : recordOnTask order member taskId missing what set hset append db = .ok result) :
    result.2.tasks.rows = db.tasks.rows.map (fun row =>
      if row.key = (member.team, taskId) ∧ row.assignee = member.agent then set row else row) := by
  rw [recordOnTask] at h
  obtain ⟨loaded, -, h⟩ := bind_eq_ok.mp h
  cases loaded with
  | none => cases h
  | some row =>
    obtain ⟨tasks, htasks, h⟩ := bind_eq_ok.mp h
    cases h
    rw [updateTasks_eq_ok htasks]
    simp only [Bool.and_eq_true, decide_eq_true_eq]

theorem reloadAfter_eq_ok {vanished : String} {reloaded : TaskRow × TaskEventRow × Db}
    (h : reloadAfter member taskId vanished result = .ok reloaded) :
    reloaded.2 = result ∧ loadTaskRow result.2.tasks member.team taskId = .ok (some reloaded.1) := by
  rw [reloadAfter] at h
  obtain ⟨loaded, hload, h⟩ := bind_eq_ok.mp h
  cases loaded with
  | none => cases h
  | some row =>
    cases h
    exact ⟨rfl, hload⟩

/-- A bookkeeping write that succeeds: one row is changed, and after a reminder or a reset it can be read. -/
theorem ReminderWrite.run_eq_ok (h : write.run order member taskId db = .ok (event, db')) :
    db'.tasks.rows = db.tasks.rows.map (write.on member taskId) ∧
    ((∀ instant lead messageId, write ≠ .leadNotified instant lead messageId) →
      ∃ row, loadTaskRow db'.tasks member.team taskId = .ok (some row)) := by
  have hmap : ∀ {x : Outcome (TaskRow × TaskEventRow × Db)}, x.map Prod.snd = .ok (event, db') →
      ∃ row, x = .ok (row, event, db') := by
    intro x hx
    cases x with
    | ok reloaded => exact ⟨reloaded.1, by rw [← Except.ok.inj hx]⟩
    | error fault => cases hx
  cases write with
  | reminded | reset =>
    obtain ⟨row, h⟩ := hmap h
    obtain ⟨result, hrec, h⟩ := bind_eq_ok.mp h
    obtain ⟨hres, hload⟩ := reloadAfter_eq_ok h
    cases hres
    exact ⟨recordOnTask_eq_ok hrec, fun _ => ⟨row, hload⟩⟩
  | leadNotified instant lead messageId =>
    rw [ReminderWrite.run, recordLeadNotified] at h
    exact ⟨recordOnTask_eq_ok h, fun hother => absurd rfl (hother instant lead messageId)⟩

end Bookkeeping

variable {current : TaskRow}

section Heads

variable {db db' : Db} {member other : MemberKey} {taskId : TaskId} {write : ReminderWrite} {row : TaskRow}
  {order : RowOrder} {event : TaskEventRow}

/-- The open rows of a member in the order of its queue. -/
def queueColumns (tasks : TaskTable) (member : MemberKey) : List TaskColumns :=
  ((tasks.rows.filter (TaskColumns.openIn member.team)).insertionSort TaskColumns.listedBefore).filter
    (fun row => decide (row.assignee = member.agent))

/-- Every open row of the team can be read. -/
def ReadableTeam (tasks : TaskTable) (team : TeamName) : Prop :=
  ∀ columns ∈ tasks.rows, columns.openIn team = true → ∃ row, decodeRow columns = .ok row

def headTask (db : Db) (member : MemberKey) : Option TaskRow := (openTasksByMember (fun _ => true) db member).head?

theorem decodes_of_decodeRow (h : decodeRow columns = .ok row) : Decodes columns row :=
  (decodeRow_spec columns).of_eq_ok h

theorem openTasksForTeam_eq_ok_iff : (∃ rows, openTasksForTeam tasks team = .ok rows) ↔ ReadableTeam tasks team := by
  rw [openTasksForTeam]
  constructor
  · rintro ⟨rows, h⟩ columns hcols hopen
    exact exists_ok_of_mapM h ((mem_insertionSort _).mpr (mem_filter.mpr ⟨hcols, hopen⟩))
  · intro hreads
    have hdecodes : ∀ columns ∈ (tasks.rows.filter (TaskColumns.openIn team)).insertionSort TaskColumns.listedBefore,
        ∃ row, decodeRow columns = .ok row := by
      intro columns hcols
      obtain ⟨hmem, hopen⟩ := mem_filter.mp ((mem_insertionSort _).mp hcols)
      exact hreads columns hmem hopen
    cases hread : ((tasks.rows.filter (TaskColumns.openIn team)).insertionSort TaskColumns.listedBefore).mapM
      decodeRow with
    | ok rows => exact ⟨rows, rfl⟩
    | error failure =>
      obtain ⟨columns, hmem, hfail⟩ := mapM_eq_error hread
      obtain ⟨row, hdec⟩ := hdecodes columns hmem
      rw [hdec] at hfail
      cases hfail

theorem headTask_eq_some_iff : headTask db member = some row ↔ ReadableTeam db.tasks member.team ∧
    ∃ columns, (queueColumns db.tasks member).head? = some columns ∧ decodeRow columns = .ok row := by
  rw [headTask, openTasksByMember]
  cases hread : openTasksForTeam db.tasks member.team with
  | error failure =>
    refine ⟨nofun, fun ⟨hreads, _⟩ => ?_⟩
    obtain ⟨rows, hrows⟩ := openTasksForTeam_eq_ok_iff.mpr hreads
    rw [hread] at hrows
    cases hrows
  | ok rows =>
    have hreads : ReadableTeam db.tasks member.team := openTasksForTeam_eq_ok_iff.mp ⟨rows, hread⟩
    have hqueue : List.Forall₂ (fun columns row => decodeRow columns = .ok row) (queueColumns db.tasks member)
        (rows.filter (fun row => decide (row.assignee = member.agent))) := by
      refine rel_filter (fun columns row hdec => ?_) (mapM_eq_ok_iff.mp hread)
      dsimp only
      rw [(decodes_of_decodeRow hdec).assignee]
    simp only [if_true, hreads, true_and]
    revert hqueue
    generalize queueColumns db.tasks member = queue
    generalize rows.filter (fun row => decide (row.assignee = member.agent)) = decoded
    intro hqueue
    cases hqueue with
    | nil => simp
    | cons hdec _ =>
      simp only [head?_cons, some.injEq, exists_eq_left']
      rw [hdec]
      exact ⟨fun h => congrArg _ h, fun h => Except.ok.inj h⟩

theorem mem_queueColumns (h : columns ∈ queueColumns tasks member) :
    columns ∈ tasks.rows ∧ columns.team = member.team ∧ columns.assignee = member.agent ∧ columns.isOpen = true := by
  obtain ⟨h, hto⟩ := mem_filter.mp h
  obtain ⟨hmem, hopen⟩ := mem_filter.mp ((mem_insertionSort _).mp h)
  rw [TaskColumns.openIn, Bool.and_eq_true, decide_eq_true_eq] at hopen
  exact ⟨hmem, hopen.1, of_decide_eq_true hto, hopen.2⟩

/-- A bookkeeping write keeps every queue in its order. -/
theorem queueColumns_on (h : tasks'.rows = tasks.rows.map (write.on member taskId)) :
    queueColumns tasks' other = (queueColumns tasks other).map (write.on member taskId) := by
  have hkeeps : ∀ columns, (write.on member taskId columns).team = columns.team ∧
      (write.on member taskId columns).assignee = columns.assignee ∧
      (write.on member taskId columns).isOpen = columns.isOpen ∧
      (write.on member taskId columns).position = columns.position ∧
      (write.on member taskId columns).assignedAt = columns.assignedAt ∧
      (write.on member taskId columns).taskId = columns.taskId := by
    intro columns
    rcases write.on_eq_or with heq | heq
    · rw [heq]
      cases write <;> exact ⟨rfl, rfl, rfl, rfl, rfl, rfl⟩
    · rw [heq]
      exact ⟨rfl, rfl, rfl, rfl, rfl, rfl⟩
  have hopen : TaskColumns.openIn other.team ∘ write.on member taskId = TaskColumns.openIn other.team := by
    funext columns
    obtain ⟨hteam, -, hopen, -⟩ := hkeeps columns
    rw [Function.comp_apply, TaskColumns.openIn, TaskColumns.openIn, hteam, hopen]
  have hto : (fun row : TaskColumns => decide (row.assignee = other.agent)) ∘ write.on member taskId =
      fun row : TaskColumns => decide (row.assignee = other.agent) := by
    funext columns
    rw [Function.comp_apply, (hkeeps columns).2.1]
  rw [queueColumns, queueColumns, h, List.filter_map, hopen, ← map_insertionSort TaskColumns.listedBefore,
    List.filter_map, hto]
  intro left _ right _
  obtain ⟨-, hl1, -, hl2, hl3, hl4⟩ := hkeeps left
  obtain ⟨-, hr1, -, hr2, hr3, hr4⟩ := hkeeps right
  rw [TaskColumns.listedBefore, TaskColumns.listedBefore, hl1, hl2, hl3, hl4, hr1, hr2, hr3, hr4]

/-- A bookkeeping write was made: one row is changed, and can be read. -/
structure Marks (write : ReminderWrite) (member : MemberKey) (taskId : TaskId) (db db' : Db) : Prop where
  rows : db'.tasks.rows = db.tasks.rows.map (write.on member taskId)
  readable : ∀ columns ∈ db.tasks.rows, columns.key = (member.team, taskId) →
    ∃ row, decodeRow (write.on member taskId columns) = .ok row

theorem loadTaskRow_eq_some (h : loadTaskRow tasks team taskId = .ok (some row)) :
    ∃ columns, tasks.find? (team, taskId) = some columns ∧ decodeRow columns = .ok row := by
  rw [loadTaskRow] at h
  split at h
  · next loaded hsel =>
    cases h
    rw [selectTaskRow] at hsel
    cases hfind : tasks.find? (team, taskId) with
    | none =>
      rw [hfind] at hsel
      cases hsel
    | some columns =>
      rw [hfind] at hsel
      obtain ⟨decoded, hdec, hsel⟩ := bind_eq_ok.mp hsel
      obtain rfl := some.inj (Except.ok.inj hsel)
      exact ⟨columns, rfl, hdec⟩
  · cases h

theorem Marks.of_run (h : write.run order member taskId db = .ok (event, db'))
    (hwrite : ∀ instant lead messageId, write ≠ .leadNotified instant lead messageId) :
    Marks write member taskId db db' := by
  obtain ⟨hrows, hreload⟩ := ReminderWrite.run_eq_ok h
  obtain ⟨row, hload⟩ := hreload hwrite
  refine ⟨hrows, fun columns hcols hkey => ⟨row, ?_⟩⟩
  obtain ⟨found, hf, hdec⟩ := loadTaskRow_eq_some hload
  have hmem : write.on member taskId columns ∈ db'.tasks.rows := hrows ▸ List.mem_map_of_mem hcols
  have hkey' : (write.on member taskId columns).key = (member.team, taskId) := by
    rcases write.on_eq_or with heq | heq
    · rw [heq, (write.change_fields).1, hkey]
    · rw [heq, hkey]
  obtain rfl := db'.tasks.eq_of_key_eq hmem (mem_of_find? hf) (hkey'.trans (key_of_find? hf).symm)
  exact hdec

theorem decodeRow_leadNotified (h : decodeRow columns = .ok row) (hzero : columns.leadNotifiedCount = 0)
    (instant : IsoTimestamp) :
    ∃ marked, decodeRow { columns with leadNotifiedCount := columns.leadNotifiedCount + 1, updatedAt := instant } =
      .ok marked := by
  rw [decodeRow] at h ⊢
  obtain ⟨position, hpos, h⟩ := bind_eq_ok.mp h
  obtain ⟨count, hcount, h⟩ := bind_eq_ok.mp h
  obtain ⟨notified, -, h⟩ := bind_eq_ok.mp h
  obtain ⟨team, hteam, h⟩ := bind_eq_ok.mp h
  obtain ⟨id, hid, h⟩ := bind_eq_ok.mp h
  obtain ⟨assignee, hto, h⟩ := bind_eq_ok.mp h
  obtain ⟨assigner, hby, h⟩ := bind_eq_ok.mp h
  obtain ⟨state, hstate, -⟩ := bind_eq_ok.mp h
  have hone : readU32 "lead_notified_count" (columns.leadNotifiedCount + 1) = .ok 1 := by
    rw [hzero]
    rfl
  simp only [hpos, hcount, hone, hteam, hid, hto, hby, hstate, bind_ok]
  exact ⟨_, rfl⟩

theorem Marks.of_notified {instant : IsoTimestamp} {lead : AgentName} {messageId : AtmMessageId}
    (h : (ReminderWrite.leadNotified instant lead messageId).run order member taskId db = .ok (event, db'))
    (hcur : selectTaskRow db.tasks member.team taskId = .ok (some current)) (hzero : current.leadNotifiedCount = 0) :
    Marks (.leadNotified instant lead messageId) member taskId db db' := by
  refine ⟨(ReminderWrite.run_eq_ok h).1, fun columns hcols hkey => ?_⟩
  obtain ⟨found, hf, hdec⟩ := @loadTaskRow_eq_some db.tasks member.team taskId current (by rw [loadTaskRow, hcur])
  obtain rfl := db.tasks.eq_of_key_eq hcols (mem_of_find? hf) (hkey.trans (key_of_find? hf).symm)
  have hcount : columns.leadNotifiedCount = current.leadNotifiedCount :=
    (congrArg TaskColumns.leadNotifiedCount (decodes_of_decodeRow hdec).core).symm
  rcases ReminderWrite.on_eq_or (.leadNotified instant lead messageId) with heq | heq
  · rw [heq]
    exact decodeRow_leadNotified hdec (hcount.trans hzero) instant
  · exact ⟨current, by rw [heq, hdec]⟩

theorem Marks.readableTeam (h : Marks write member taskId db db') (hteam : ReadableTeam db.tasks team) :
    ReadableTeam db'.tasks team := by
  intro columns hcols hopen
  rw [h.rows] at hcols
  obtain ⟨before, hbefore, rfl⟩ := List.mem_map.mp hcols
  by_cases hkey : before.key = (member.team, taskId)
  · exact h.readable before hbefore hkey
  · have hsame : write.on member taskId before = before := if_neg (fun hfor => hkey hfor.1)
    rw [hsame] at hopen ⊢
    exact hteam before hbefore hopen

/-- After a bookkeeping write every queue has the head it had, marked if the write was for it. -/
theorem Marks.headTask (h : Marks write member taskId db db') (hhead : headTask db other = some row) :
    ∃ columns marked, columns ∈ queueColumns db.tasks other ∧ decodeRow columns = .ok row ∧
      decodeRow (write.on member taskId columns) = .ok marked ∧ AtmCore.headTask db' other = some marked := by
  obtain ⟨hread, columns, hcols, hdec⟩ := headTask_eq_some_iff.mp hhead
  have hmem := mem_of_mem_head? hcols
  have hread' := h.readableTeam hread
  have hhead' : (queueColumns db'.tasks other).head? = some (write.on member taskId columns) := by
    rw [queueColumns_on h.rows, head?_map, hcols, map_some]
  obtain ⟨hrow, hteam, -, hopen⟩ := mem_queueColumns (mem_of_mem_head? hhead')
  obtain ⟨marked, hmark⟩ := hread' _ hrow (by rw [TaskColumns.openIn, hteam, hopen, decide_eq_true rfl, Bool.and_self])
  exact ⟨columns, marked, hmem, hdec, hmark, headTask_eq_some_iff.mpr ⟨hread', _, hhead', hmark⟩⟩

end Heads

/-- The pump after some escalation mail: nothing was prompted and nothing of the ledger written. -/
structure Mailed (pump mailed : WakePump) : Prop where
  ledger : SameLedger pump.db mailed.db
  roster : mailed.roster = pump.roster
  clock : mailed.clock = pump.clock
  tick : mailed.tick = pump.tick
  log : ∃ events, mailed.log = pump.log ++ events ∧ ∀ member instant, WakeEvent.prompted member instant ∉ events

/-- What the turn of a member does after its mail, if every ledger write gets through. -/
inductive Turn (inputs : TurnInputs) (candidate : MemberObservation) (head : Option TaskRow) (now : IsoTimestamp)
    (mailed : WakePump) : WakePump → Prop where
  | quiet : Turn inputs candidate head now mailed mailed
  | reset (row : TaskRow) (event : TaskEventRow) (db : Db) (hhead : head = some row)
      (hactive : candidate.state = .active) (hsustained : sustainedActive candidate.stateChangedAt now = true)
      (hrun : (ReminderWrite.reset now).run inputs.order candidate.member row.taskId mailed.db = .ok (event, db)) :
      Turn inputs candidate head now mailed { mailed with db := db }
  | audited (row current : TaskRow) (lead : AgentName) (messageId : AtmMessageId) (event : TaskEventRow) (db : Db)
      (hhead : head = some row) (hcurrent : selectTaskRow mailed.db.tasks row.team row.taskId = .ok (some current))
      (hzero : current.leadNotifiedCount = 0)
      (hrun : (ReminderWrite.leadNotified now lead messageId).run inputs.order ⟨row.team, row.assignee⟩ row.taskId
        mailed.db = .ok (event, db)) :
      Turn inputs candidate head now mailed { mailed with db := db }
  | unrenderable (row : TaskRow) (event : TaskEventRow) (db : Db) (hhead : head = some row)
      (hrun : (ReminderWrite.reminded now .unrenderable).run inputs.order candidate.member row.taskId mailed.db =
        .ok (event, db)) :
      Turn inputs candidate head now mailed { mailed with db := db }
  | prompted (row : TaskRow) (event : TaskEventRow) (db : Db) (hhead : head = some row)
      (hdue : reminderDue row now = true) (hidle : mailed.stillIdle candidate.member = true)
      (hrun : (ReminderWrite.reminded now .emitted).run inputs.order candidate.member row.taskId mailed.db =
        .ok (event, db)) :
      Turn inputs candidate head now mailed { mailed with
        db := db, prompted := mailed.prompted + 1, log := mailed.log ++ [.prompted candidate.member now] }

section Turns

variable {world : World} {port : RenderPort} {inputs : TurnInputs} {pump mailed : WakePump}
  {candidate : MemberObservation}
  {now : IsoTimestamp} {taskId : TaskId}

theorem Mailed.refl (pump : WakePump) : Mailed pump pump :=
  ⟨.refl _, rfl, rfl, rfl, [], (append_nil _).symm, fun _ _ => not_mem_nil⟩

theorem Mailed.trans {third : WakePump} (h : Mailed pump mailed) (h' : Mailed mailed third) : Mailed pump third := by
  obtain ⟨events, hlog, hnone⟩ := h.log
  obtain ⟨more, hlog', hnone'⟩ := h'.log
  refine ⟨h.ledger.trans h'.ledger, h'.roster.trans h.roster, h'.clock.trans h.clock, h'.tick.trans h.tick,
    events ++ more, ?_, fun member instant hmem => ?_⟩
  · rw [hlog', hlog, append_assoc]
  · exact (mem_append.mp hmem).elim (hnone member instant) (hnone' member instant)

theorem Mailed.of_escalated (h : SameLedger pump.db db) (kind : EscalationKind) (member : MemberKey)
    (task : Option TaskId) (result : EscalationResult) (episodes : Episodes) :
    Mailed pump { pump with db := db, log := pump.log ++ [.escalated kind member task result], episodes := episodes } :=
  ⟨h, rfl, rfl, rfl, [.escalated kind member task result], rfl, fun _ _ hmem => by cases mem_singleton.mp hmem⟩

theorem writeLedger_eq {write : ReminderWrite}
    (h : WakeEvent.ledgerFailed member ∉ (pump.writeLedger inputs member taskId write).log) :
    ∃ event db, write.run inputs.order member taskId pump.db = .ok (event, db) ∧
      pump.writeLedger inputs member taskId write = { pump with db := db } := by
  rw [WakePump.writeLedger] at h ⊢
  split
  · next event db herr hrun => exact ⟨event, db, hrun, rfl⟩
  · next hother =>
    split at h
    · next event db herr hrun => exact (hother event db herr hrun).elim
    · exact absurd (mem_append_right _ mem_cons_self) h

section Dispositions

variable {mailPending newEpisode : Bool} {state : RuntimeMemberState} {head : Option TaskRow}
  {activeSince : Option IsoTimestamp} {refusals : Nat}

theorem dispose_eq_reset (h : dispose mailPending state head now activeSince newEpisode refusals = .resetReminders) :
    state = .active ∧ sustainedActive activeSince now = true := by
  rw [dispose.eq_def] at h
  split at h
  · split at h
    · next hdue => exact ⟨rfl, hdue.2⟩
    · cases h
  all_goals repeat' (first | cases h | split at h)

/-- Only a task whose last reminder is an interval ago is nudged. -/
theorem dispose_eq_nudge (h : dispose mailPending state (some row) now activeSince newEpisode refusals = .nudge) :
    reminderDue row now = true := by
  cases state with
  | idle =>
    rw [dispose] at h
    by_cases hdue : reminderDue row now = true
    · exact hdue
    · rw [if_neg hdue] at h
      repeat' (first | cases h | split at h)
  | active | blocked | offline | unknown | identityConflict =>
    rw [dispose.eq_def] at h
    dsimp only at h
    repeat' (first | cases h | split at h)

end Dispositions

theorem emitTaskReminder_cases (hdue : reminderDue row now = true)
    (hfail : ∀ member, WakeEvent.ledgerFailed member ∉ (pump.emitTaskReminder inputs candidate.member row now).log) :
    Turn inputs candidate (some row) now pump (pump.emitTaskReminder inputs candidate.member row now) := by
  rw [WakePump.emitTaskReminder] at hfail ⊢
  split
  · exact .quiet
  · next hcap =>
    rw [if_neg hcap] at hfail
    split
    · next herr =>
      rw [herr] at hfail
      obtain ⟨event, db, hrun, heq⟩ := writeLedger_eq (hfail candidate.member)
      rw [heq]
      exact .unrenderable row event db rfl hrun
    · exact .quiet
    · next hdispatch =>
      rw [hdispatch] at hfail
      dsimp only at hfail
      split
      · next hidle =>
        rw [if_pos hidle] at hfail
        split
        · next hemitted =>
          rw [hemitted] at hfail
          obtain ⟨event, db, hrun, heq⟩ := writeLedger_eq (hfail candidate.member)
          rw [heq]
          rw [Bool.and_eq_true] at hidle
          exact .prompted row event db rfl hdue hidle.1 hrun
        · exact .quiet
      · exact .quiet

theorem exists_currentStalledTask (h : (WakePump.currentStalledTask inputs row db).isSome = true) :
    ∃ current, selectTaskRow db.tasks row.team row.taskId = .ok (some current) ∧ escalationDue current = true := by
  rw [WakePump.currentStalledTask] at h
  split at h
  · split at h
    · next current hsel =>
      split at h
      · next hsame => exact ⟨current, hsel, hsame.2.2.2⟩
      · cases h
    · cases h
  · cases h

theorem escalateStalledTask_cases
    (hfail : ∀ member, WakeEvent.ledgerFailed member ∉ (pump.escalateStalledTask world port inputs row now).log) :
    ∃ mailed, Mailed pump mailed ∧
      Turn inputs candidate (some row) now mailed (pump.escalateStalledTask world port inputs row now) := by
  rw [WakePump.escalateStalledTask] at hfail ⊢
  split
  · next hstalled =>
    rw [if_pos hstalled] at hfail
    rw [Bool.and_eq_true] at hstalled
    obtain ⟨current, hsel, hdue⟩ := exists_currentStalledTask hstalled.2
    have hledger := @escalateMail_sameLedger world port inputs.escalation ⟨row.team, row.assignee⟩ .taskStalled
      (some row.taskId) none pump.db
    dsimp only at hfail ⊢
    generalize escalateMail world port inputs.escalation ⟨row.team, row.assignee⟩ .taskStalled (some row.taskId) none
      pump.db = result at hfail hledger ⊢
    obtain ⟨⟨error, outcome⟩, written⟩ := result
    refine ⟨_, .of_escalated hledger .taskStalled ⟨row.team, row.assignee⟩ (some row.taskId) ⟨error, outcome⟩
      pump.episodes, ?_⟩
    cases error with
    | some error => exact .quiet
    | none =>
      obtain ⟨event, db, hrun, heq⟩ := writeLedger_eq (hfail ⟨row.team, row.assignee⟩)
      rw [heq]
      refine .audited row current _ _ event db rfl ?_ ?_ hrun
      · rw [← hsel, hledger.tasks]
      · simp only [escalationDue, Bool.and_eq_true, decide_eq_true_eq] at hdue
        exact hdue.2
  · exact ⟨pump, .refl pump, .quiet⟩

theorem escalateEpisode_mailed {kind : EpisodeKind} {since : IsoTimestamp} :
    Mailed pump (pump.escalateEpisode world port inputs member taskId kind since) := by
  rw [WakePump.escalateEpisode]
  split
  · split
    · split
      · have hledger := @escalateEpisodeMail_sameLedger world port inputs.escalation (pump.roster member)
          member kind since pump.db
        dsimp only
        split
        · exact .of_escalated hledger _ _ _ _ _
        · exact .of_escalated hledger _ _ _ _ _
      · exact .refl pump
    · exact .refl pump
  · exact .refl pump

/-- What a disposition does, if it is the one of the observation. -/
theorem applyTaskDisposition_cases {head : Option TaskRow} {mailPending newEpisode : Bool} {refusals : Nat}
    {disposition : TaskDisposition}
    (hdispose : dispose mailPending candidate.state head now candidate.stateChangedAt newEpisode refusals = disposition)
    (hfail : ∀ member, WakeEvent.ledgerFailed member ∉
      (pump.applyTaskDisposition world port inputs candidate head now disposition).log) :
    ∃ mailed, Mailed pump mailed ∧
      Turn inputs candidate head now mailed (pump.applyTaskDisposition world port inputs candidate
        head now disposition) := by
  rw [WakePump.applyTaskDisposition.eq_def] at hfail ⊢
  cases head with
  | none => exact ⟨pump, .refl pump, .quiet⟩
  | some row =>
    cases disposition with
    | hold reason => exact ⟨pump, .refl pump, .quiet⟩
    | escalateEpisode kind => exact ⟨_, escalateEpisode_mailed, .quiet⟩
    | escalateStalled => exact escalateStalledTask_cases hfail
    | nudge => exact ⟨pump, .refl pump, emitTaskReminder_cases (dispose_eq_nudge hdispose) hfail⟩
    | resetReminders =>
      obtain ⟨hact, hsustained⟩ := dispose_eq_reset hdispose
      obtain ⟨event, db, hrun, heq⟩ := writeLedger_eq (hfail candidate.member)
      dsimp only
      rw [heq]
      exact ⟨pump, .refl pump, .reset row event db rfl hact hsustained hrun⟩

theorem refusalCheck_mailed {refusals : Nat}
    (h : pump.refusalCheck world port inputs member = some (refusals, mailed)) : Mailed pump mailed := by
  rw [WakePump.refusalCheck] at h
  split at h
  · split at h
    · cases h
      split
      · exact .of_escalated (escalateMail_sameLedger ..) _ _ _ _ _
      · exact .refl pump
    · cases h
      exact .refl pump
  · cases h

/-- What the turn of a member can do, if every ledger write gets through. -/
theorem turn_cases {tick : WakeTick} {next : WakePump}
    (hnext : pump.processTaskCandidate world port inputs tick now candidate = next)
    (hfail : ∀ member, WakeEvent.ledgerFailed member ∉ next.log) :
    ∃ mailed, Mailed pump mailed ∧ Turn inputs candidate (tick.openTasks candidate.member).head? now mailed next := by
  subst hnext
  have hobserved : ∀ episodes : Episodes, Mailed pump { pump with episodes := episodes } := fun _ =>
    ⟨.refl _, rfl, rfl, rfl, [], (append_nil _).symm, fun _ _ => not_mem_nil⟩
  rw [WakePump.processTaskCandidate] at hfail ⊢
  split
  · next hdirect =>
    rw [if_pos hdirect] at hfail
    obtain ⟨mailed, hmail, hturn⟩ := applyTaskDisposition_cases rfl hfail
    exact ⟨mailed, (hobserved _).trans hmail, hturn⟩
  · next hdirect =>
    rw [if_neg hdirect] at hfail
    split
    · exact ⟨_, hobserved _, .quiet⟩
    · next refusals checked hcheck =>
      rw [hcheck] at hfail
      obtain ⟨mailed, hmail, hturn⟩ := applyTaskDisposition_cases rfl hfail
      exact ⟨mailed, ((hobserved _).trans (refusalCheck_mailed hcheck)).trans hmail, hturn⟩

end Turns

end AtmCore
