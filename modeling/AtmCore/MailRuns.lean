import AtmCore.MailRows
import AtmCore.StoreRuns

/-! The mail over runs of the store. Only queued writes and batches touch the mail tables; the reminders, the moves, the
roster and the cron store leave them alone. Between two operations the database may be closed and opened again. -/

namespace AtmCore

open Batching List

variable {world : World} {guard : MailGuard} {db : Db}

/-- The writes of a batch, each in the state it meets. -/
def MeetsEach (world : World) (guard : MailGuard) : List QueuedWrite → Db → Prop
  | [], _ => True
  | queued :: writes, db =>
    queued.Meets world guard db ∧ MeetsEach world guard writes (processQueuedWrite world queued db).2

/-- The guard lets a step of the store pass. -/
def StoreOp.Meets (world : World) (guard : MailGuard) (op : StoreOp) (db : Db) : Prop :=
  match op with
  | .write queued => queued.Meets world guard db
  | .batch _ _ writes => MeetsEach world guard writes db
  | _ => True

/-- A step in the life of a database. -/
inductive LifeStep where
  | store (op : StoreOp)
  | reopen

def LifeStep.apply (world : World) (step : LifeStep) (db : Db) : Db :=
  match step with
  | .store op => op.apply world db
  | .reopen => normalizeLegacyAssignmentMarkers db

def live (world : World) (steps : List LifeStep) (db : Db) : Db :=
  steps.foldl (fun db step => step.apply world db) db

def LifeStep.Meets (world : World) (guard : MailGuard) (step : LifeStep) (db : Db) : Prop :=
  match step with
  | .store op => op.Meets world guard db
  | .reopen => guard .reopen db

/-- The guard lets every step of a life pass. -/
def LifeMeets (world : World) (guard : MailGuard) : List LifeStep → Db → Prop
  | [], _ => True
  | step :: steps, db => step.Meets world guard db ∧ LifeMeets world guard steps (step.apply world db)

def StoreOp.writes : StoreOp → List QueuedWrite
  | .write queued => [queued]
  | .batch _ _ writes => writes
  | _ => []

def LifeStep.writes : LifeStep → List QueuedWrite
  | .store op => op.writes
  | .reopen => []

variable {writes : List QueuedWrite} {steps : List LifeStep}

theorem runSingly_path (hopen : guard.Answers) :
    ∀ db, (∀ queued ∈ writes, queued.Reads guard) → MeetsEach world guard writes db →
      MailPath world guard db (runSingly (processQueuedWrite world) writes db).2 := by
  induction writes with
  | nil => exact fun db _ _ => .refl db
  | cons queued writes ih =>
    rintro db hreads ⟨hmeets, hrest⟩
    have hfirst := hopen.processQueuedWrite_path (hreads queued mem_cons_self) hmeets
    exact hfirst.trans (ih _ (fun later hlater => hreads later (mem_cons_of_mem _ hlater)) hrest)

theorem CronOp.apply_sameMail (op : CronOp) : SameMail db (op.apply db) := by
  obtain ⟨schedules, events, intents, heq⟩ := op.apply_eq
  exact heq ▸ ⟨rfl, rfl⟩

theorem MailGuard.Answers.apply_path (hopen : guard.Answers) {op : StoreOp}
    (hreads : ∀ queued ∈ op.writes, queued.Reads guard) (hmeets : op.Meets world guard db) :
    MailPath world guard db (op.apply world db) := by
  cases op with
  | write queued => exact hopen.processQueuedWrite_path (hreads queued mem_cons_self) hmeets
  | batch openError commitError writes =>
    rw [StoreOp.apply, processBatch_snd]
    split
    · exact runSingly_path hopen db hreads hmeets
    · exact .refl db
  | move ambient team taskId actor target instant origin =>
    have hmove : MailPath world guard db
        (processQueuedWrite world ⟨.taskMove team taskId actor target instant origin, ambient⟩ db).2 :=
      hopen.processQueuedWrite_path trivial trivial
    cases origin with
    | peer => exact .refl db
    | «local» => exact hmove
    | cronRun id generation => exact hmove
  | remind order member taskId reminder =>
    obtain ⟨tasks, events, heq⟩ := StoreOp.remind_writesLedger
    exact heq ▸ .same ⟨rfl, rfl⟩
  | saveRoster roster => exact .same ⟨rfl, rfl⟩
  | cron op => exact .same (op.apply_sameMail)

theorem MailGuard.Answers.step_path (hopen : guard.Answers) {step : LifeStep}
    (hreads : ∀ queued ∈ step.writes, queued.Reads guard) (hmeets : step.Meets world guard db) :
    MailPath world guard db (step.apply world db) := by
  cases step with
  | store op => exact hopen.apply_path hreads hmeets
  | reopen => exact .single .reopen hmeets (.reopen rfl rfl)

/-- A life goes along a path of acts that the guard lets pass. -/
theorem live_path (hopen : guard.Open) :
    ∀ db, LifeMeets world guard steps db → MailPath world guard db (live world steps db) := by
  induction steps with
  | nil => exact fun db _ => .refl db
  | cons step steps ih =>
    rintro db ⟨hmeets, hrest⟩
    exact (hopen.answers.step_path (fun queued _ => hopen.reads queued) hmeets).trans (ih _ hrest)

/-- The guard that lets everything pass. -/
def anyAct : MailGuard := fun _ _ => True

theorem anyAct_open : anyAct.Open where
  notice _ _ _ _ _ := trivial
  acknowledge _ _ _ := trivial
  decompose _ _ := trivial
  read _ _ := trivial
  acknowledged _ _ _ _ _ := trivial

/-- The guard lets every message and every deletion pass, and every opening of the database. -/
structure MailGuard.Admits (guard : MailGuard) : Prop where
  store : ∀ record linked db, guard (.store record linked) db
  restate : ∀ record db, guard (.restate record) db
  delete : ∀ key db, guard (.delete key) db
  reopen : ∀ db, guard .reopen db

section

variable (h : guard.Admits)
include h

theorem Message.meets_of_admits (record : Message) (db : Db) : record.Meets guard db :=
  ⟨fun _ linked => h.store record linked db, fun _ _ => h.restate record db⟩

theorem meetsAll_of_admits {records : List Message} :
    ∀ (ambient : Ambient) (db : Db), MeetsAll world guard ambient records db := by
  induction records with
  | nil => exact fun _ _ => trivial
  | cons record records ih => exact fun _ db => ⟨record.meets_of_admits h db, fun _ db' _ => ih _ db'⟩

theorem QueuedWrite.meets_of_admits (queued : QueuedWrite) (db : Db) :
    queued.Meets world guard db := by
  rw [QueuedWrite.Meets]
  split
  · exact Message.meets_of_admits h _ db
  · exact meetsAll_of_admits h _ db
  · exact fun _ reply _ _ => reply.meets_of_admits h db
  · exact Message.meets_of_admits h _ db
  · exact h.delete _ db
  · trivial

theorem meetsEach_of_admits : ∀ db, MeetsEach world guard writes db := by
  induction writes with
  | nil => exact fun _ => trivial
  | cons queued writes ih => exact fun db => ⟨queued.meets_of_admits h db, ih _⟩

theorem LifeStep.meets_of_admits (step : LifeStep) (db : Db) : step.Meets world guard db := by
  cases step with
  | reopen => exact h.reopen db
  | store op =>
    cases op with
    | write queued => exact queued.meets_of_admits h db
    | batch openError commitError writes => exact meetsEach_of_admits h db
    | move | remind | saveRoster | cron => trivial

theorem lifeMeets_of_admits : ∀ db, LifeMeets world guard steps db := by
  induction steps with
  | nil => exact fun _ => trivial
  | cons step steps ih => exact fun db => ⟨step.meets_of_admits h db, ih _⟩

end

theorem anyAct_admits : anyAct.Admits where
  store _ _ _ := trivial
  restate _ _ := trivial
  delete _ _ := trivial
  reopen _ := trivial

theorem LifeStep.path (step : LifeStep) (db : Db) : MailPath world anyAct db (step.apply world db) :=
  anyAct_open.answers.step_path (fun queued _ => anyAct_open.reads queued) (step.meets_of_admits anyAct_admits db)

/-- The mail rows are sound in every state of a life. -/
theorem live_sound (h : MailSound db) : MailSound (live world steps db) :=
  (live_path anyAct_open db (lifeMeets_of_admits anyAct_admits db)).sound h

end AtmCore
