import AtmCore.HandoffRepeats

/-! Runs of the handoff. What the writer has applied is the beginning of what was accepted, up to immediate
repetitions; what is accepted and not confirmed is in the buffer; and a repetition that follows on an application
changes nothing that a reader sees. -/

namespace AtmCore

open Rows Fallible List Option Table

/-- What a reader sees of the state of a message. -/
def MessageStateRow.readState (row : MessageStateRow) :
    Bool × Option IsoTimestamp × Option IsoTimestamp × Option IsoTimestamp :=
  (row.read, row.pendingAckAt, row.acknowledgedAt, row.expiresAt)

/-- Neither a read, acknowledgement or expiry field nor a seen watermark differs. -/
structure SameReadState (db db' : Db) : Prop where
  states : ∀ key, (db'.messageStates.find? key).map MessageStateRow.readState =
    (db.messageStates.find? key).map MessageStateRow.readState
  watermarks : ∀ mailbox, db'.seenWatermarks.find? mailbox = db.seenWatermarks.find? mailbox

def ReadDisplayTransition.IsRead (transition : ReadDisplayTransition) (db : Db) : Prop :=
  ∀ key ∈ transition.messageIds,
    (db.messageStates.find? (transition.scope.team, transition.scope.agent, key)).any MessageStateRow.read = true

/-- The messages of a transition are read, and its watermark is set. -/
structure Settled (transition : ReadDisplayTransition) (db : Db) : Prop where
  read : transition.IsRead db
  watermark : ∀ watermark, transition.seenWatermark = some watermark →
    db.seenWatermarks.find? transition.scope = some ⟨transition.scope, watermark⟩

abbrev ReadDisplayTransition.execute (transition : ReadDisplayTransition) (ambient : Ambient) (db : Db) : Outcome Db :=
  executeReadDisplayState ambient transition.scope transition.messageIds transition.seenWatermark transition.origin db

variable {states states' : Table MessageStateRow.key} {mailbox : MailboxScope}
  {nextDue updatedAt : IsoTimestamp} {keys : List MessageKey}

section Applied

variable {world : World} {ambient : Ambient} {transition : ReadDisplayTransition} {db db' : Db}
  {failure : Option AtmError} {other : MailKey}

/-- A submission that is not applied changes nothing. -/
theorem applyReadDisplayState_eq :
    (∃ db', transition.execute ambient db = .ok db' ∧
      StateHandoff.applyReadDisplayState world ambient transition db = (.ok (), db')) ∨
    ∃ error, StateHandoff.applyReadDisplayState world ambient transition db = (.error error, db) := by
  rw [StateHandoff.applyReadDisplayState, processQueuedWrite]
  dsimp only [execute]
  rw [← ReadDisplayTransition.execute]
  cases transition.execute ambient db with
  | ok written => exact .inl ⟨written, rfl, rfl⟩
  | error failure =>
    cases failure with
    | panic => exact .inr ⟨_, rfl⟩
    | err error =>
      have haudit : appendRejectedTaskEvent ambient (.applyReadDisplayState transition.scope transition.messageIds
          transition.seenWatermark transition.origin) error db = .ok (none, db) := by
        rw [appendRejectedTaskEvent]
        split <;> rfl
      refine .inr ⟨error, ?_⟩
      rw [Fallible.bind_error]
      dsimp only
      rw [haudit]
      rfl

theorem outcome_ok (h : StateHandoff.outcome world ambient failure transition db = (.ok (), db')) :
    transition.execute ambient db = .ok db' := by
  cases failure with
  | some error => cases h
  | none =>
    rcases applyReadDisplayState_eq with ⟨written, hexecute, heq⟩ | ⟨error, heq⟩
    · rw [StateHandoff.outcome, heq] at h
      cases h
      exact hexecute
    · rw [StateHandoff.outcome, heq] at h
      cases h

theorem outcome_error {error : AtmError}
    (h : StateHandoff.outcome world ambient failure transition db = (.error error, db')) : db' = db := by
  cases failure with
  | some error => exact (Prod.mk.inj h).2.symm
  | none =>
    rcases applyReadDisplayState_eq with ⟨written, -, heq⟩ | ⟨error, heq⟩
    · rw [StateHandoff.outcome, heq] at h
      cases h
    · rw [StateHandoff.outcome, heq] at h
      exact (Prod.mk.inj h).2.symm

theorem any_read_markMessageRead {key : MailKey} (h : (states.find? other).any MessageStateRow.read = true) :
    ((markMessageRead states key updatedAt nextDue).find? other).any MessageStateRow.read = true := by
  obtain ⟨row, hrow, hread⟩ := (Option.any_eq_true ..).mp h
  rw [markMessageRead, find?_mapRows, hrow, map_some, any_some]
  split
  · rfl
  · exact hread

section

variable (h : markMessagesRead mailbox updatedAt nextDue keys states = .ok states')
include h

theorem any_read_markMessagesRead (hread : (states.find? other).any MessageStateRow.read = true) :
    (states'.find? other).any MessageStateRow.read = true := by
  induction keys generalizing states with
  | nil =>
    cases h
    exact hread
  | cons key keys ih =>
    rw [markMessagesRead] at h
    split at h
    · exact ih h (any_read_markMessageRead hread)
    · cases h

theorem read_of_markMessagesRead :
    ∀ key ∈ keys, (states'.find? (mailbox.team, mailbox.agent, key)).any MessageStateRow.read = true := by
  induction keys generalizing states with
  | nil => exact nofun
  | cons key keys ih =>
    rw [markMessagesRead] at h
    split at h
    · next hf =>
      intro other hother
      rcases mem_cons.mp hother with rfl | hother
      · refine any_read_markMessagesRead h ?_
        obtain ⟨row, hrow, hlive⟩ := (Option.any_eq_true ..).mp hf
        rw [markMessageRead, find?_mapRows, hrow, map_some, any_some,
          if_pos ⟨key_of_find? hrow, of_decide_eq_true hlive⟩]
      · exact ih h other hother
    · cases h

/-- To mark what is read changes nothing that a reader sees. -/
theorem readState_markMessagesRead
    (hread : ∀ key ∈ keys, (states.find? (mailbox.team, mailbox.agent, key)).any MessageStateRow.read = true)
    (other : MailKey) :
    (states'.find? other).map MessageStateRow.readState = (states.find? other).map MessageStateRow.readState := by
  induction keys generalizing states with
  | nil =>
    cases h
    rfl
  | cons key keys ih =>
    rw [markMessagesRead] at h
    split at h
    · rw [ih h (fun later hlater => any_read_markMessageRead (hread later (mem_cons_of_mem _ hlater))),
        markMessageRead, find?_mapRows, Option.map_map]
      cases hother : states.find? other with
      | none => rfl
      | some row =>
        rw [map_some, map_some, Function.comp_apply]
        split
        · next hmark =>
          have hfirst := hread key mem_cons_self
          rw [← hmark.1, find?_key (mem_of_find? hother), any_some] at hfirst
          rw [MessageStateRow.readState, MessageStateRow.readState, hfirst]
        · rfl
    · cases h

end

section

variable (h : transition.execute ambient db = .ok db')
include h

theorem executeReadDisplayState_ok :
    ∃ updatedAt nextDue, markMessagesRead transition.scope updatedAt nextDue transition.messageIds db.messageStates =
        .ok db'.messageStates ∧
      ∀ mailbox, db'.seenWatermarks.find? mailbox = match transition.seenWatermark with
        | none => db.seenWatermarks.find? mailbox
        | some watermark =>
          if transition.scope = mailbox then some ⟨mailbox, watermark⟩ else db.seenWatermarks.find? mailbox := by
  rw [ReadDisplayTransition.execute, executeReadDisplayState.eq_def] at h
  obtain ⟨_, -, h⟩ := bind_eq_ok.mp h
  obtain ⟨states, hstates, h⟩ := bind_eq_ok.mp h
  cases h
  refine ⟨_, _, hstates, fun mailbox => ?_⟩
  cases hwm : transition.seenWatermark with
  | none => rfl
  | some watermark =>
    dsimp only
    rw [find?_upsert]
    by_cases hbox : transition.scope = mailbox
    · rw [if_pos hbox, if_pos hbox]
      cases hf : db.seenWatermarks.find? mailbox with
      | none => rw [elim_none, hbox]
      | some row => rw [elim_some, ← key_of_find? hf]
    · rw [if_neg hbox, if_neg hbox]

theorem settled_of_ok : Settled transition db' := by
  obtain ⟨updatedAt, nextDue, hstates, hwms⟩ := executeReadDisplayState_ok h
  refine ⟨read_of_markMessagesRead hstates, fun watermark hwm => ?_⟩
  rw [hwms, hwm]
  exact if_pos rfl

theorem ReadDisplayTransition.IsRead.execute {earlier : ReadDisplayTransition} (hread : earlier.IsRead db) :
    earlier.IsRead db' := by
  obtain ⟨updatedAt, nextDue, hstates, -⟩ := executeReadDisplayState_ok h
  exact fun key hkey => any_read_markMessagesRead hstates (hread key hkey)

/-- A second application changes nothing that a reader sees. -/
theorem Settled.sameReadState (hset : Settled transition db) : SameReadState db db' := by
  obtain ⟨updatedAt, nextDue, hstates, hwms⟩ := executeReadDisplayState_ok h
  refine ⟨readState_markMessagesRead hstates hset.read, fun mailbox => ?_⟩
  rw [hwms]
  cases hwm : transition.seenWatermark with
  | none => rfl
  | some watermark =>
    dsimp only
    split
    · next hbox =>
      rw [← hbox]
      exact (hset.watermark watermark hwm).symm
    · rfl

end

end Applied

/-- An event that is a write to the database. -/
def HandoffEvent.isWrite : HandoffEvent → Bool
  | .applied _ | .other => true
  | _ => false

def StateHandoff.lastWrite (handoff : StateHandoff) : Option HandoffEvent :=
  (handoff.log.filter HandoffEvent.isWrite).getLast?

def HandoffStep.ofHandoff : HandoffStep → Bool
  | .other _ => false
  | _ => true

/-- What holds along every run. -/
structure HandoffInv (config : HandoffConfig) (handoff : StateHandoff) : Prop where
  config : handoff.config = config
  sound : HandoffSound handoff
  relay : Relay.Sound handoff.relay
  repeats : Repeats handoff
  settled : ∀ item, handoff.lastWrite = some (.applied item) → Settled item.transition handoff.db
  read : .other ∉ handoff.log → ∀ item ∈ handoff.applied, item.transition.IsRead handoff.db

section Runs

variable {world : World} {config : HandoffConfig} {handoff next : StateHandoff} {item : Accepted}

/-- What a move does to the database: nothing, which it logs no write for, an application of what has its turn, or
another write. -/
theorem HandoffMove.writes (hmove : HandoffMove world handoff next) :
    (next.db = handoff.db ∧ ∃ events, next.log = handoff.log ++ events ∧ ∀ event ∈ events, event.isWrite = false) ∨
    (∃ item ambient, next.log = handoff.log ++ [.applied item] ∧
      (∃ awaited lane, handoff.lane = (item, awaited) :: lane) ∧
      item.transition.execute ambient handoff.db = .ok next.db) ∨
    next.log = handoff.log ++ [.other] := by
  cases hmove with
  | idle | refused | woken | crashed | stopped | exhausted | restarting =>
    exact .inl ⟨rfl, [], (append_nil _).symm, nofun⟩
  | accepted | taken | submitted | reported | confirmed | respawned =>
    exact .inl ⟨rfl, [_], rfl, fun _ hevent => mem_singleton.mp hevent ▸ rfl⟩
  | failed ambient failure item awaited lane db error hlane herror =>
    exact .inl ⟨outcome_error herror, [], (append_nil _).symm, nofun⟩
  | applied ambient failure item awaited lane db hlane hok =>
    exact .inr (.inl ⟨item, ambient, rfl, ⟨awaited, lane, hlane⟩, outcome_ok hok⟩)
  | other step => exact .inr (.inr rfl)

theorem lastWrite_concat {event : HandoffEvent} (h : next.log = handoff.log ++ [event])
    (hwrite : event.isWrite = true) : next.lastWrite = some event := by
  rw [StateHandoff.lastWrite, h, filter_append, filter_cons_of_pos hwrite, filter_nil, getLast?_concat]

theorem lastWrite_append {events : List HandoffEvent} (h : next.log = handoff.log ++ events)
    (hquiet : ∀ event ∈ events, event.isWrite = false) : next.lastWrite = handoff.lastWrite := by
  have hnone : events.filter HandoffEvent.isWrite = [] :=
    filter_eq_nil_iff.mpr (fun event hevent => Bool.eq_false_iff.mp (hquiet event hevent))
  rw [StateHandoff.lastWrite, h, filter_append, hnone, append_nil, StateHandoff.lastWrite]

theorem applied_append {events : List HandoffEvent} (h : next.log = handoff.log ++ events)
    (hquiet : ∀ event ∈ events, event.isWrite = false) : next.applied = handoff.applied := by
  have hnone : events.filterMap HandoffEvent.application = [] := by
    refine filterMap_eq_nil_iff.mpr (fun event hevent => ?_)
    cases event with
    | applied => cases hquiet _ hevent
    | _ => rfl
  rw [StateHandoff.applied, h, filterMap_append, hnone, append_nil, StateHandoff.applied]

theorem HandoffMove.config_eq (hmove : HandoffMove world handoff next) : next.config = handoff.config := by
  cases hmove <;> rfl

theorem HandoffInv.move (h : HandoffInv config handoff) (hmove : HandoffMove world handoff next) :
    HandoffInv config next := by
  refine ⟨hmove.config_eq.trans h.config, h.sound.move hmove, h.relay.run (h.sound.refines hmove),
    h.repeats.move h.sound h.relay.nodup hmove, ?_, ?_⟩
  · -- what was applied last is settled until something else is written
    intro item hlast
    rcases hmove.writes with ⟨hdb, events, hlog, hquiet⟩ | ⟨last, ambient, hlog, -, hexecute⟩ | hlog
    · rw [hdb]
      exact h.settled item (lastWrite_append hlog hquiet ▸ hlast)
    · obtain rfl := HandoffEvent.applied.inj (some.inj ((lastWrite_concat hlog rfl).symm.trans hlast))
      exact settled_of_ok hexecute
    · cases (lastWrite_concat hlog rfl).symm.trans hlast
  · -- what was applied earlier stays read
    intro halone item hitem
    rcases hmove.writes with ⟨hdb, events, hlog, hquiet⟩ | ⟨last, ambient, hlog, -, hexecute⟩ | hlog
    · rw [applied_append hlog hquiet] at hitem
      rw [hdb]
      exact h.read (fun hother => halone (hlog ▸ mem_append_left _ hother)) item hitem
    · rw [applied_of_log hlog] at hitem
      rcases mem_append.mp hitem with hearlier | hlast
      · exact (h.read (fun hother => halone (hlog ▸ mem_append_left _ hother)) item hearlier).execute hexecute
      · exact mem_singleton.mp hlast ▸ (settled_of_ok hexecute).read
    · exact absurd (hlog ▸ mem_append_right _ mem_cons_self) halone

theorem HandoffInv.run (h : HandoffInv config handoff) (steps : List HandoffStep) :
    HandoffInv config (handoff.run world steps) := by
  induction steps generalizing handoff with
  | nil => exact h
  | cons step steps ih => exact ih (h.move (step.apply_moves))

theorem HandoffInv.of_start {db : Db} (h : StateHandoff.start config db = .ok handoff) :
    HandoffInv config handoff ∧ .other ∉ handoff.log := by
  rw [StateHandoff.start] at h
  split at h
  · cases h
  · cases h
    refine ⟨⟨rfl, ⟨rfl, nofun, Nat.zero_le _, nofun, fun entry hentry => (by cases hentry)⟩,
      ⟨nodup_nil, Nat.le_refl _, .inl rfl⟩, ⟨nofun, nofun, nofun, nofun, nofun⟩, nofun, nofun⟩, nofun⟩

theorem HandoffInv.confirmed_applied (h : HandoffInv config handoff) :
    ∀ item ∈ handoff.confirmed, item ∈ handoff.applied := by
  have htake : handoff.accepted.take handoff.confirmed.length = handoff.confirmed := by
    rw [h.sound.buffered, take_left]
  intro item hitem
  refine (destutter_sublist (· ≠ ·) handoff.applied).subset ?_
  rcases h.relay.applied with heq | ⟨last, -, -, heq⟩
  · exact heq ▸ htake ▸ hitem
  · exact heq ▸ mem_append_left _ (htake ▸ hitem)

/-- Only another write to the database is logged as one. -/
theorem HandoffStep.other_mem_log {step : HandoffStep} (hstep : step.ofHandoff)
    (h : .other ∈ (step.apply world handoff).log) : .other ∈ handoff.log := by
  cases step <;> grind [HandoffStep.apply, StateHandoff.tryPush, StateHandoff.takeFront, StateHandoff.submit,
    StateHandoff.report, StateHandoff.write, StateHandoff.receive, StateHandoff.wake, StateHandoff.crash,
    StateHandoff.supervise, StateHandoff.respawn, HandoffStep.ofHandoff]

theorem other_mem_run {steps : List HandoffStep} (halone : steps.all HandoffStep.ofHandoff)
    (h : .other ∈ (handoff.run world steps).log) : .other ∈ handoff.log := by
  induction steps generalizing handoff with
  | nil => exact h
  | cons step steps ih =>
    rw [all_cons, Bool.and_eq_true] at halone
    exact HandoffStep.other_mem_log halone.1 (ih halone.2 h)

/-- Without other writes the last write is the last application. -/
theorem lastWrite_of_alone (halone : .other ∉ handoff.log) :
    handoff.lastWrite = handoff.applied.getLast?.map HandoffEvent.applied := by
  have hwrites : handoff.log.filter HandoffEvent.isWrite = handoff.applied.map HandoffEvent.applied := by
    rw [StateHandoff.applied]
    generalize handoff.log = log at halone
    induction log with
    | nil => rfl
    | cons event log ih =>
      rw [mem_cons, not_or] at halone
      cases event with
      | other => exact absurd rfl halone.1
      | applied item => exact congrArg (HandoffEvent.applied item :: ·) (ih halone.2)
      | accepted | taken | submitted | reported | confirmed | restarted => exact ih halone.2
  rw [StateHandoff.lastWrite, hwrites, getLast?_map]

/-- A step that applies a transition: it takes effect, and where it did before, nothing that a reader sees changes. -/
theorem HandoffInv.applied_step (h : HandoffInv config handoff) (hmove : HandoffMove world handoff next)
    (hlog : next.log = handoff.log ++ [.applied item]) :
    Settled item.transition next.db ∧ (item ∈ handoff.applied → Again item handoff.log ∧
      (.other ∉ handoff.log ∨ handoff.lastWrite = some (.applied item) → SameReadState handoff.db next.db)) := by
  rcases hmove.writes with ⟨-, events, hevents, hquiet⟩ |
    ⟨other, ambient, hother, ⟨awaited, lane, hlane⟩, hexecute⟩ | hother
  · rw [append_cancel_left (hevents.symm.trans hlog)] at hquiet
    cases hquiet _ mem_cons_self
  · obtain rfl := HandoffEvent.applied.inj (cons.inj (append_cancel_left (hother.symm.trans hlog))).1
    have hfront := h.sound.lane (other, awaited) (hlane ▸ mem_cons_self)
    refine ⟨settled_of_ok hexecute, fun hagain => ⟨h.repeats.pending other hfront (.inr ⟨?_, hagain⟩),
      fun hlast => (h.settled other ?_).sameReadState hexecute⟩⟩
    · rw [hlane]
      exact cons_ne_nil _ _
    · rcases hlast with halone | hlast
      · have hlast : handoff.applied.getLast? = some other :=
          h.relay.last_of_turn (h.sound.turn.trans hfront) hagain
        rw [lastWrite_of_alone halone, hlast, Option.map_some]
      · exact hlast
  · cases append_cancel_left (hother.symm.trans hlog)

end Runs

/-- In every run of the handoff, with any other writes in between: what the writer has applied, with immediate
repetitions removed, is the beginning of what was accepted; what was accepted is confirmed, and then applied, or in
the buffer, which keeps its size. A transition that is applied has its messages read and its watermark set then, and
the messages stay read where nothing else writes. One that is applied again was submitted before a restart or a
reported error, and changes nothing that a reader sees, in a run without other writes and wherever nothing else was
written since. -/
theorem handoff_in_order (world : World) (config : HandoffConfig) (db : Db) (handoff : StateHandoff)
    (hstart : StateHandoff.start config db = .ok handoff) (steps : List HandoffStep) (reached : StateHandoff)
    (hreached : handoff.run world steps = reached) :
    reached.applied.destutter (· ≠ ·) <+: reached.accepted ∧
    reached.accepted = reached.confirmed ++ reached.queue ∧
    (∀ item ∈ reached.confirmed, item ∈ reached.applied) ∧ reached.queue.length ≤ config.handoffBuffer ∧
    (steps.all HandoffStep.ofHandoff → ∀ item ∈ reached.applied, item.transition.IsRead reached.db) ∧
    ∀ (step : HandoffStep) (item : Accepted), (step.apply world reached).log = reached.log ++ [.applied item] →
      Settled item.transition (step.apply world reached).db ∧
      (item ∈ reached.applied → Again item reached.log ∧
        (steps.all HandoffStep.ofHandoff ∨ reached.lastWrite = some (.applied item) →
          SameReadState reached.db (step.apply world reached).db)) := by
  subst hreached
  obtain ⟨hfirst, hlog⟩ := HandoffInv.of_start hstart
  have hinv : HandoffInv config (handoff.run world steps) := hfirst.run steps
  have halone : steps.all HandoffStep.ofHandoff → .other ∉ (handoff.run world steps).log :=
    fun hsteps hother => hlog (other_mem_run hsteps hother)
  refine ⟨hinv.relay.applied_prefix, hinv.sound.buffered, hinv.confirmed_applied, ?_,
    fun hsteps => hinv.read (halone hsteps), fun step item hlog => ?_⟩
  · rw [← hinv.config]
    exact hinv.sound.room
  · obtain ⟨hsettled, hrepeated⟩ := hinv.applied_step step.apply_moves hlog
    exact ⟨hsettled, fun hagain => (hrepeated hagain).imp id (fun hsame hsteps => hsame (hsteps.imp halone id))⟩

def sampleHandoffConfig : HandoffConfig := ⟨2, 5000, 3⟩

def sampleHandoff (db : Db) : StateHandoff where
  config := sampleHandoffConfig
  queue := []
  state := .ready
  restartCount := 0
  rejectedBufferFull := 0
  rejectedUnavailable := 0
  retryDeadlineExhaustions := 0
  worker := .waiting
  lane := []
  db := db
  log := []

/-- A mailbox with one message. -/
def sampleStored : Db := live .accepting [.store (sampleWrite (sampleMessage sampleLead sampleMember 7))] .empty

def sampleReading : ReadDisplayTransition where
  scope := ⟨sampleTeam, sampleMember⟩
  messageIds := [(sampleMessage sampleLead sampleMember 7).messageKey]
  seenWatermark := some ⟨5⟩
  origin := .local

/-- The worker is cancelled after its submission was applied, and the new one submits it again. -/
def sampleRepeat : List HandoffStep :=
  [.push .ready sampleReading, .take 0, .submit 0 none, .write .steady none, .crash, .supervise, .respawn, .take 10,
    .submit 10 none]

theorem reading_applied_twice :
    ((sampleHandoff sampleStored).run .accepting (sampleRepeat ++ [.write .steady none])).applied =
        [⟨0, sampleReading⟩, ⟨0, sampleReading⟩] ∧
      Settled sampleReading ((sampleHandoff sampleStored).run .accepting (sampleRepeat ++ [.write .steady none])).db ∧
      SameReadState ((sampleHandoff sampleStored).run .accepting sampleRepeat).db
        ((sampleHandoff sampleStored).run .accepting (sampleRepeat ++ [.write .steady none])).db := by
  have horder := handoff_in_order .accepting sampleHandoffConfig sampleStored (sampleHandoff sampleStored) rfl
    sampleRepeat _ rfl
  refine ⟨by decide +kernel, ?_⟩
  rw [StateHandoff.run, StateHandoff.run, foldl_append]
  have hstep := horder.2.2.2.2.2 (.write .steady none) ⟨0, sampleReading⟩ (by decide +kernel)
  exact ⟨hstep.1, (hstep.2 (by decide +kernel)).2 (.inl rfl)⟩

end AtmCore
