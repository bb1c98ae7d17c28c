import AtmCore.LedgerReplay

/-! Who may change what of a task. Its assigner is whoever sent the first assignment, and stays; another assignee
needs a message of the assigner, a start one of the current assignee, and a close one between the two. So a task goes
along authorized changes only, over one operation and over a whole run. -/

namespace AtmCore

/-- The act is a message about the task, with the property. -/
def LedgerAct.Sent (act : LedgerAct) (key : TaskKey) (P : Message → Prop) : Prop :=
  ∃ record, act = .message record ∧ record.team = key.1 ∧ record.envelope.taskId = some key.2 ∧ P record

/-- A change of a task that the act behind it may make. -/
structure Authorized (act : LedgerAct) (key : TaskKey) (before after : Option TaskColumns) : Prop where
  created : ∀ row, before = none → after = some row → row.state = .assigned ∧
    act.Sent key (fun record => record.envelope.from = row.assigner ∧ record.agent = row.assignee)
  assigner : ∀ row, before = some row → ∃ row', after = some row' ∧ row'.assigner = row.assigner
  assignee : ∀ row row', before = some row → after = some row' → row'.assignee ≠ row.assignee →
    act.Sent key (fun record => record.envelope.from = row.assigner)
  started : ∀ row row', before = some row → after = some row' → row.state ≠ .active →
    row'.state = .active → row'.assignee = row.assignee ∧
      act.Sent key (fun record => record.envelope.from = row.assignee)
  completed : ∀ row row', before = some row → after = some row' → row.state ≠ .complete →
    row'.state = .complete →
      act.Sent key (fun record =>
        (record.envelope.from = row.assignee ∧ record.agent = row.assigner) ∨
        (record.envelope.from = row.assigner ∧ record.agent = row.assignee))

variable {act : LedgerAct} {key : TaskKey} {row : TaskColumns} {after : Option TaskColumns}
  {acts : List LedgerAct} {before : Option TaskColumns} {row' : TaskColumns} {ledger first : Ledger}

theorem Authorized.of_some {act : LedgerAct} {key : TaskKey} {row : TaskColumns} (hby : row'.assigner = row.assigner)
    (hto : row'.assignee ≠ row.assignee → act.Sent key (fun record => record.envelope.from = row.assigner))
    (hstarted : row.state ≠ .active → row'.state = .active → row'.assignee = row.assignee ∧
      act.Sent key (fun record => record.envelope.from = row.assignee))
    (hcompleted : row.state ≠ .complete → row'.state = .complete → act.Sent key (fun record =>
        (record.envelope.from = row.assignee ∧ record.agent = row.assigner) ∨
        (record.envelope.from = row.assigner ∧ record.agent = row.assignee))) :
    Authorized act key (some row) (some row') where
  created _ h := by cases h
  assigner old hold := by
    cases hold
    exact ⟨row', rfl, hby⟩
  assignee old new hold hnew := by
    cases hold
    cases hnew
    exact hto
  started old new hold hnew := by
    cases hold
    cases hnew
    exact hstarted
  completed old new hold hnew := by
    cases hold
    cases hnew
    exact hcompleted

theorem Authorized.of_none {act : LedgerAct} {key : TaskKey} {after : Option TaskColumns}
    (hcreated : ∀ row, after = some row → row.state = .assigned ∧
      act.Sent key (fun record => record.envelope.from = row.assigner ∧ record.agent = row.assignee)) :
    Authorized act key none after where
  created row _ := hcreated row
  assigner row h := by cases h
  assignee row row' h := by cases h
  started row row' h := by cases h
  completed row row' h := by cases h

theorem Authorized.of_kept (hby : row'.assigner = row.assigner)
    (hto : row'.assignee = row.assignee) (hstate : row'.state = row.state) :
    Authorized act key (some row) (some row') :=
  .of_some hby (absurd hto) (fun hne heq => absurd (hstate.symm.trans heq) hne)
    (fun hne heq => absurd (hstate.symm.trans heq) hne)

theorem Authorized.refl (act : LedgerAct) (key : TaskKey) (row : Option TaskColumns) :
    Authorized act key row row := by
  cases row with
  | some row => exact .of_kept rfl rfl rfl
  | none => exact .of_none (fun row h => nomatch h)

theorem authorized_setTask (h : Authorized act row.key (ledger.task row.key) (some row.core)) :
    Authorized act key (ledger.task key) ((ledger.setTask row).task key) := by
  by_cases hkey : key = row.key
  · subst hkey
    rw [Ledger.setTask_task_self _ rfl]
    exact h
  · rw [Ledger.setTask_task_of_ne _ hkey]
    exact .refl act key _

theorem Ledger.Told.authorized_setTask {old new : TaskColumns} {at' : TaskKey} (h : ledger.Told)
    (hrow : ledger.task at' = some old) (hkey : new.key = old.key)
    (hauth : Authorized act at' (some old) (some new.core)) :
    Authorized act key (ledger.task key) ((ledger.setTask new).task key) := by
  refine AtmCore.authorized_setTask ?_
  rw [hkey, h.keyed _ _ hrow, hrow]
  exact hauth

theorem LedgerStep.authorized {second : Ledger} (hstep : LedgerStep act first second) (h : first.Told)
    (key : TaskKey) : Authorized act key (first.task key) (second.task key) := by
  cases hstep with
  | refreshed record taskId messageId row hsubj hrow hopen hasg hby =>
    refine h.authorized_setTask hrow rfl ?_
    exact .of_kept rfl rfl rfl
  | assigned record taskId messageId row placement index hsubj hrow hby hother hpl =>
    have htask : (first.assign record taskId row placement messageId index).task =
        (first.setTask (assignedColumns record taskId messageId)).task := by
      cases placement <;> simp [Ledger.assign, Ledger.setTask]
    rw [htask]
    refine authorized_setTask ?_
    show Authorized _ (record.team, taskId) (first.task (record.team, taskId)) _
    rw [hrow]
    cases row with
    | some old =>
      have hfrom : record.envelope.from = old.assigner := hby old rfl
      exact .of_some hfrom (fun _ => ⟨record, rfl, rfl, hsubj.1, hfrom⟩) (fun _ hstate => by cases hstate)
        (fun _ hstate => by cases hstate)
    | none =>
      refine .of_none (fun new hnew => ?_)
      cases hnew
      exact ⟨rfl, record, rfl, rfl, hsubj.1, rfl, rfl⟩
  | started record taskId row hsubj hrow hstate hasg =>
    refine h.authorized_setTask hrow rfl ?_
    exact .of_some rfl (absurd rfl) (fun _ _ => ⟨rfl, record, rfl, rfl, hsubj.1, hasg⟩)
      (fun _ hcomplete => by cases hcomplete)
  | closed record taskId row outcome reason hsubj hrow hopen hparties =>
    refine h.authorized_setTask hrow rfl ?_
    exact .of_some rfl (absurd rfl) (fun _ hact => by cases hact)
      (fun _ _ => ⟨record, rfl, rfl, hsubj.1, hparties⟩)
  | moved team taskId actor target instant row fromPosition toPosition index hrow hstate hpl hfrom hto =>
    exact .refl _ key _
  | kept | refused => exact .refl _ key _
  | reminder write member taskId row hrow =>
    have hkey : row.core.key = (member.team, taskId) := h.keyed _ _ hrow
    refine authorized_setTask ?_
    split
    · rw [(write.change_fields).1, hkey, hrow]
      cases write <;> exact .of_kept rfl rfl rfl
    · rw [hkey, hrow]
      exact .refl _ _ _

/-- A sequence of authorized changes of a task, one for each act. -/
inductive AuthorizedPath (key : TaskKey) : List LedgerAct → Option TaskColumns → Option TaskColumns → Prop where
  | refl (row : Option TaskColumns) : AuthorizedPath key [] row row
  | step {act : LedgerAct} {acts : List LedgerAct} {first second last : Option TaskColumns}
      (hstep : Authorized act key first second) (hrest : AuthorizedPath key acts second last) :
      AuthorizedPath key (act :: acts) first last

theorem LedgerPath.authorized {last : Ledger} (hpath : LedgerPath acts first last) (h : first.Told)
    (key : TaskKey) : AuthorizedPath key acts (first.task key) (last.task key) := by
  induction hpath with
  | refl ledger => exact .refl _
  | step hstep _ ih => exact .step (hstep.authorized h key) (ih (hstep.told h))

theorem AuthorizedPath.assigner (h : AuthorizedPath key acts before after)
    (hrow : before = some row) : ∃ row', after = some row' ∧ row'.assigner = row.assigner := by
  induction h generalizing row with
  | refl => exact ⟨row, hrow, rfl⟩
  | step hstep _ ih =>
    obtain ⟨second, hsecond, hby⟩ := hstep.assigner row hrow
    obtain ⟨last, hlast, hby'⟩ := ih hsecond
    exact ⟨last, hlast, hby'.trans hby⟩

/-- A task that was not there was created by a message of its assigner. -/
theorem AuthorizedPath.created (h : AuthorizedPath key acts before after)
    (hnone : before = none) (hrow : after = some row) :
    ∃ act ∈ acts, act.Sent key (fun record => record.envelope.from = row.assigner) := by
  induction h with
  | refl => rw [hnone] at hrow; cases hrow
  | @step act acts first second last hstep hrest ih =>
    cases hsecond : second with
    | none =>
      obtain ⟨act', hmem, hsent⟩ := ih hsecond hrow
      exact ⟨act', List.mem_cons_of_mem act hmem, hsent⟩
    | some new =>
      obtain ⟨-, record, hact, hteam, hid, hfrom, -⟩ := hstep.created new hnone hsecond
      obtain ⟨row', hrow', hby⟩ := hrest.assigner hsecond
      obtain rfl := Option.some.inj (hrow.symm.trans hrow')
      exact ⟨act, List.mem_cons_self, record, hact, hteam, hid, hfrom.trans hby.symm⟩

/-- The stored row of a task without its position, as far as there is one. -/
def Db.task (db : Db) (key : TaskKey) : Option TaskColumns := (db.tasks.find? key).map TaskColumns.core

theorem Represents.task {db : Db} (h : Represents db ledger) (key : TaskKey) : ledger.task key = db.task key :=
  (Holds.core h.pictured key).symm

/-- Over a whole run from an empty ledger, and over every further operation, a task goes along changes that
the messages of the operations authorize, each message at most once and in order. Its assigner sent the
message that created it and is the assigner in every later state. -/
theorem tasks_change_by_authority (world : World) (ops : List StoreOp) (db : Db) (key : TaskKey) :
    let reached := run world ops db.withoutTasks
    (∃ plans acts, List.Forall₂ StoreOp.Plan ops plans ∧ acts.Sublist plans.flatten ∧
      AuthorizedPath key acts none (reached.task key) ∧
      ∀ row, reached.task key = some row →
        ∃ act ∈ acts, act.Sent key (fun record => record.envelope.from = row.assigner)) ∧
    (∀ op : StoreOp, ∃ plan acts, op.Plan plan ∧ acts.Sublist plan ∧
      AuthorizedPath key acts (reached.task key) ((op.apply world reached).task key)) ∧
    (∀ later row, reached.task key = some row →
      ∃ row', (run world later reached).task key = some row' ∧ row'.assigner = row.assigner) := by
  intro reached
  obtain ⟨plans, hplans, acts, ledger, hacts, hpath, hrep⟩ := run_reaches (represents_withoutTasks)
  have htold : ledger.Told := hpath.invariant (fun hstep h => hstep.told h) .empty
  have htask : ledger.task key = reached.task key := hrep.task key
  have hwhole : AuthorizedPath key acts none (reached.task key) := htask ▸ hpath.authorized .empty key
  refine ⟨⟨plans, acts, hplans, hacts, hwhole, fun row hrow => hwhole.created rfl hrow⟩, fun op => ?_,
    fun later row hrow => ?_⟩
  · obtain ⟨plan, hplan, acts', ledger', hacts', hpath', hrep'⟩ := op.apply_reaches hrep
    have hauthorized := hpath'.authorized htold key
    rw [htask, hrep'.task] at hauthorized
    exact ⟨plan, acts', hplan, hacts', hauthorized⟩
  · obtain ⟨-, -, acts', ledger', -, hpath', hrep'⟩ := run_reaches hrep
    obtain ⟨row', hrow', hassigner⟩ := (hpath'.authorized htold key).assigner (htask.trans hrow)
    exact ⟨row', (hrep'.task key).symm.trans hrow', hassigner⟩

end AtmCore
