import AtmCore.StoreRuns
import AtmCore.ThreadSends

/-! Threads over runs of sends. Each send reads the mailbox in some state of the run and is written in the latest. The
threads of every mailbox stay sound as long as each send keeps what the thread check does not look at: a template has
no thread check, a redelivery writes the expiry of the message that is stored, and a follow-up that acknowledges
another message is read back without a requirement of its own. -/

namespace AtmCore

open ParentLinks List Option

/-- What the threads of a mailbox are for: they are linear and end in a root, they have one sender and nothing in them
expires, and a message that requires acknowledgement has only such messages after it. -/
structure SoundThreads (messages : List MessageEnvelope) : Prop where
  acyclic : Acyclic (threadParent messages)
  linear : ∀ id, ((⟨messages⟩ : ThreadIndex).children id).length ≤ 1
  rooted : ∀ message ∈ messages, ∃ id chain rootId, message.messageId = some id ∧
    Climb (threadParent messages) id chain ∧ chain.getLast? = some rootId ∧
    ∃ root ∈ messages, root.messageId = some rootId ∧ root.parentMessageId = none ∧ message.from = root.from
  lasting : ∀ message ∈ messages, (message.parentMessageId.isSome = true ∨
    ∃ child ∈ messages, child.parentMessageId.isSome = true ∧ child.parentMessageId = message.messageId) →
      message.expiresAt = none
  requiresAck : ∀ message ∈ messages, ∀ id chain, message.messageId = some id → Climb (threadParent messages) id chain →
    ∀ earlier ∈ messages, (∃ k ∈ chain, earlier.messageId = some k) → earlier.requiresAck = true →
      message.requiresAck = true

variable {messages : List MessageEnvelope}

theorem children_length_le (h : MailThreads messages) (id : AtmMessageId) :
    ((⟨messages⟩ : ThreadIndex).children id).length ≤ 1 := by
  have hnd : ((⟨messages⟩ : ThreadIndex).children id).Nodup := h.nodup.filter _
  rcases hch : (⟨messages⟩ : ThreadIndex).children id with _ | ⟨first, _ | ⟨second, rest⟩⟩
  · exact Nat.zero_le _
  · exact Nat.le_refl _
  · rw [hch] at hnd
    have hfirst : first ∈ (⟨messages⟩ : ThreadIndex).children id := hch ▸ mem_cons_self
    have hsecond : second ∈ (⟨messages⟩ : ThreadIndex).children id := hch ▸ mem_cons_of_mem _ mem_cons_self
    rw [ThreadIndex.mem_children] at hfirst hsecond
    have heq := h.eq_of_parent hfirst.1 hsecond.1 hfirst.2 hsecond.2
    exact absurd (heq ▸ mem_cons_self) (nodup_cons.mp hnd).1

theorem SoundThreads.of_mailThreads (h : MailThreads messages) : SoundThreads messages where
  acyclic := h.acyclic
  linear := children_length_le h
  rooted message hmsg := by
    obtain ⟨id, hid⟩ := h.id_isSome hmsg
    obtain ⟨chain, hclimb, hthere⟩ := h.exists_climb hmsg hid
    obtain ⟨rest, rfl⟩ := hclimb.eq_cons
    have hlast := getLast?_eq_some_getLast (cons_ne_nil id rest)
    obtain ⟨root, hroot, hrootId⟩ := hthere _ (mem_of_getLast? hlast)
    refine ⟨id, id :: rest, _, hid, hclimb, hlast, root, hroot, hrootId, ?_, ?_⟩
    · rw [← h.parentOf_eq hroot hrootId]
      exact hclimb.up_getLast hlast
    · have hsend : root.from = message.from :=
        Threads.along (S := fun a b : MessageEnvelope => a.from = b.from) (fun _ => rfl) (fun _ _ _ h h' => h.trans h')
          (fun _ _ h => h.sender) h hclimb hmsg hid (mem_of_getLast? hlast) hroot hrootId
      exact hsend.symm
  lasting message hmsg hpart := by
    rcases hpart with hpar | ⟨child, hchild, hsome, hpar⟩
    · obtain ⟨parentId, hpar⟩ := isSome_iff_exists.mp hpar
      obtain ⟨parent, -, -, hcontinues⟩ := h.exists_parent hmsg hpar
      exact hcontinues.lasting
    · obtain ⟨parentId, hsome⟩ := isSome_iff_exists.mp hsome
      obtain ⟨parent, hmem, hid, hcontinues⟩ := h.exists_parent hchild hsome
      rw [h.eq_of_id hmsg hmem (hpar.symm.trans hsome) hid]
      exact hcontinues.lastingParent
  requiresAck message hmsg id chain hid hclimb earlier hearlier hab hreq := by
    obtain ⟨k, hk, hearlierId⟩ := hab
    exact Threads.along (S := fun a b : MessageEnvelope => a.requiresAck = true → b.requiresAck = true) (fun _ h => h)
      (fun _ _ _ h h' hfirst => h' (h hfirst)) (fun _ _ h => h.requiresAck) h hclimb hmsg hid hk hearlier hearlierId
      hreq

namespace Send

variable (send : Send) (db : Db)

def mailKey : MailKey :=
  (recordOf send.input.context.recipient send.input.identity.messageId send.input.envelope).mailKey

/-- The template that the send admits as one, if any. -/
def template : Option VerifiedTemplateSend :=
  match send.path with
  | .sync => none
  | .async verifiedTemplate _ => admittedTemplate send.input verifiedTemplate

/-- A redelivery does not let the stored message expire that had no expiry. -/
def keepsExpiry : Bool :=
  (db.mailMessages.find? send.mailKey).all (fun row =>
    (db.messageOf row).envelope.expiresAt.isSome || send.input.request.expiresAt.isNone)

/-- A follow-up to a message that requires acknowledgement does not acknowledge a message itself. -/
def keepsRequirement : Bool :=
  send.input.request.parentMessageId.all (fun parentId => (db.storedIn send.input.context.recipient).all (fun parent =>
    decide (parent.messageId ≠ some parentId) || !parent.requiresAck ||
      send.input.request.acknowledgesMessageId.isNone))

/-- A template that names a parent continues a stored message, as the thread check asks of ordinary messages. -/
def continuesTemplate : Bool :=
  send.template.isNone || send.input.request.parentMessageId.all (fun parentId =>
    send.input.request.expiresAt.isNone && (db.storedIn send.input.context.recipient).any (fun parent =>
      decide (parent.messageId = some parentId) && parent.expiresAt.isNone &&
        decide (parent.from = send.input.context.canonicalSender) &&
        (!parent.requiresAck || send.input.request.requiresAck)))

/-- What a send has to keep beside the thread check. -/
def keepsThreads : Bool :=
  send.input.request.dryRun || (send.keepsExpiry db && send.keepsRequirement db && send.continuesTemplate db)

end Send

variable {input : SendInput}

section Steps

variable {world : World} {port : RenderPort} {seen db : Db} {send : Send}

theorem meets_threadGuard {mailbox : MailboxScope} {messageId : AtmMessageId} {envelope : MessageEnvelope}
    (hid : envelope.messageId = some messageId)
    (hfollows : ∀ linked, Follows (db.storedIn mailbox) ((recordOf mailbox messageId envelope).readBack linked))
    (hexp : ∀ row, db.mailMessages.find? (recordOf mailbox messageId envelope).mailKey = some row →
      (db.messageOf row).envelope.expiresAt = none → envelope.expiresAt = none) :
    (recordOf mailbox messageId envelope).Meets threadGuard db where
  fresh _ linked := ⟨isSome_iff_exists.mpr ⟨messageId, hid⟩, hfollows linked⟩
  stored _ _ := hexp

theorem Send.expires_of_keepsExpiry (h : send.keepsExpiry db = true) {row : MailRow}
    (hrow : db.mailMessages.find? send.mailKey = some row) (hnone : (db.messageOf row).envelope.expiresAt = none) :
    send.input.request.expiresAt = none := by
  rw [Send.keepsExpiry, hrow, all_some, hnone] at h
  simpa using h

theorem Send.acknowledges_of_keepsRequirement (h : send.keepsRequirement db = true) {parentId : AtmMessageId}
    (hparId : send.input.request.parentMessageId = some parentId) {parent : MessageEnvelope}
    (hpar : parent ∈ db.storedIn send.input.context.recipient) (hid : parent.messageId = some parentId)
    (hreq : parent.requiresAck = true) : send.input.request.acknowledgesMessageId = none := by
  rw [Send.keepsRequirement, hparId, all_some, List.all_eq_true] at h
  have hkept := h parent hpar
  rw [hid, hreq] at hkept
  simpa using hkept

/-- The part of the condition that is about every send, on the input that is persisted. -/
structure SendInput.KeepsThreads (input : SendInput) (db : Db) : Prop where
  expires : ∀ row, db.mailMessages.find?
      (recordOf input.context.recipient input.identity.messageId input.envelope).mailKey = some row →
    (db.messageOf row).envelope.expiresAt = none → input.request.expiresAt = none
  acknowledges : ∀ parentId, input.request.parentMessageId = some parentId →
    ∀ parent ∈ db.storedIn input.context.recipient, parent.messageId = some parentId → parent.requiresAck = true →
      input.request.acknowledgesMessageId = none

theorem persistMessage_threads {load : Except AtmError (List MessageEnvelope)} (hseen : ThreadsSound seen)
    (hgrown : GrownFrom seen db)
    (hload : ∀ inbox, load = .ok inbox → Shows inbox (seen.storedIn input.context.recipient))
    (hkeeps : input.KeepsThreads db) {receipt : Option (HostName × HostName)} {provenance : MessageWriteOrigin} :
    MailPath world threadGuard db
      (persistMessage world input.ambient load input.context.recipient input.envelope receipt provenance db).2 := by
  obtain ⟨extra, henv⟩ := input.envelope_eq
  refine persistMessage_path threadGuard_beside (fun prepared messageId hid hprep => ?_)
  have hown : prepared.messageId = input.envelope.messageId ∧ prepared.expiresAt = input.envelope.expiresAt := by
    rcases hprep with ⟨-, rfl⟩ | ⟨inbox, parentId, -, happ⟩
    · exact ⟨rfl, rfl⟩
    · rw [happ.prepared]
      exact ⟨rfl, rfl⟩
  have hmessageId : messageId = input.identity.messageId := by
    rw [hown.1, henv] at hid
    exact (some.inj hid).symm
  refine meets_threadGuard hid (fun linked => ?_) (fun row hrow hnone => ?_)
  · rcases hprep with ⟨hroot, rfl⟩ | ⟨inbox, parentId, hinbox, happ⟩
    · intro parentId hpar
      cases linked <;> cases hroot.symm.trans hpar
    · refine happ.follows (hseen.threads _) (hload inbox hinbox) (hgrown _) (fun parent hpar hparId hreq => ?_)
        linked
      have hname := happ.named
      rw [henv] at hname ⊢
      exact hkeeps.acknowledges parentId hname parent hpar hparId hreq
  · have hexp := hkeeps.expires row (by rw [← hmessageId]; exact hrow) hnone
    rw [hown.2, henv]
    exact hexp

/-- The condition on a template that names a parent is what a follow-up needs. -/
theorem Send.follows_of_continuesTemplate {input : SendInput} (hkeeps : input.KeepsThreads db)
    (h : input.request.parentMessageId.all (fun parentId => input.request.expiresAt.isNone &&
      (db.storedIn input.context.recipient).any (fun parent => decide (parent.messageId = some parentId) &&
        parent.expiresAt.isNone && decide (parent.from = input.context.canonicalSender) &&
        (!parent.requiresAck || input.request.requiresAck))) = true)
    {linked : Bool} : Follows (db.storedIn input.context.recipient)
      ((recordOf input.context.recipient input.identity.messageId input.envelope).readBack linked) := by
  obtain ⟨extra, henv⟩ := input.envelope_eq
  intro parentId hparId
  have hname : input.request.parentMessageId = some parentId := by
    rw [henv] at hparId
    cases linked <;> exact hparId
  rw [hname, all_some, Bool.and_eq_true] at h
  obtain ⟨parent, hmem, hpar⟩ := List.any_eq_true.mp h.2
  simp only [Bool.and_eq_true, Bool.or_eq_true, decide_eq_true_eq, isNone_iff_eq_none, Bool.not_eq_true'] at hpar
  obtain ⟨⟨⟨hid, hlastPar⟩, hsend⟩, hreq⟩ := hpar
  refine ⟨parent, hmem, hid, ?_, hlastPar, ?_, fun hack => ?_⟩
  · rw [hsend, henv]
    cases linked <;> rfl
  · rw [henv]
    cases linked <;> exact isNone_iff_eq_none.mp h.1
  · have hanswers := hkeeps.acknowledges parentId hname parent hmem hid hack
    have hown : input.request.requiresAck = true := hreq.resolve_left (by simp [hack])
    rw [requiresAck_readBack, henv]
    simp [buildSendEnvelope, hown, hanswers]

theorem persistSendMessage_threads (hseen : ThreadsSound seen)
    (hgrown : GrownFrom seen db)
    (hkeeps : input.request.dryRun = false → input.KeepsThreads db) :
    MailPath world threadGuard db (persistSendMessage world port input seen db).2 := by
  rw [persistSendMessage]
  split
  · exact .refl db
  · next hdry =>
    exact persistMessage_threads hseen hgrown (fun inbox hload => loadProjection_shows hload)
      (hkeeps (Bool.eq_false_iff.mpr hdry))

theorem persistSendMessageAsync_threads {input : SendInput} {verifiedTemplate : Option VerifiedTemplateSend}
    {cronRunFence : Option (Nat × CronGeneration)} (hseen : ThreadsSound seen)
    (hgrown : GrownFrom seen db)
    (hkeeps : input.request.dryRun = false → input.KeepsThreads db)
    (htemplate : input.request.dryRun = false → (admittedTemplate input verifiedTemplate).isSome = true → ∀ linked,
      Follows (db.storedIn input.context.recipient)
      ((recordOf input.context.recipient input.identity.messageId input.envelope).readBack linked)) :
    MailPath world threadGuard db
      (persistSendMessageAsync world port input verifiedTemplate cronRunFence seen db).2 := by
  rw [persistSendMessageAsync]
  split
  · exact .refl db
  next hdry =>
  have hdry : input.request.dryRun = false := Bool.eq_false_iff.mpr hdry
  split
  · next verified hverified =>
    obtain ⟨extra, henv⟩ := input.envelope_eq
    refine admitVerifiedTemplate_path threadGuard_beside (meets_threadGuard (by rw [henv]; rfl)
      (htemplate hdry (isSome_iff_exists.mpr ⟨verified, hverified⟩)) (fun row hrow hnone => ?_))
    rw [henv]
    exact (hkeeps hdry).expires row hrow hnone
  · exact persistMessage_threads hseen hgrown (fun inbox hload => loadProjectionAsync_shows hload) (hkeeps hdry)

/-- A send that keeps the threads goes along a path that the guard of the threads lets pass. -/
theorem Send.persist_path (hseen : ThreadsSound seen)
    (hgrown : GrownFrom seen db)
    (hkeeps : send.keepsThreads db = true) : MailPath world threadGuard db (send.persist world port seen db).2 := by
  obtain ⟨path, input⟩ := send
  rw [Send.persist]
  cases hreq : validateTaskRequest input.request with
  | error error => exact .refl db
  | ok request =>
    obtain ⟨taskId, taskOp, rfl⟩ := validateTaskRequest_eq_ok hreq
    have hparts : input.request.dryRun = false → Send.keepsExpiry ⟨path, input⟩ db = true ∧
        Send.keepsRequirement ⟨path, input⟩ db = true ∧ Send.continuesTemplate ⟨path, input⟩ db = true := by
      intro hdry
      rw [Send.keepsThreads, hdry, Bool.false_or, Bool.and_eq_true, Bool.and_eq_true, and_assoc] at hkeeps
      exact hkeeps
    -- the normalised request differs in its task operation only
    have hinput : input.request.dryRun = false → SendInput.KeepsThreads { input with
        request := { input.request with taskId := taskId, taskOp := taskOp, taskComplete := none } } db := by
      intro hdry
      obtain ⟨hexp, hrequirement, -⟩ := hparts hdry
      exact ⟨fun row hrow hnone => Send.expires_of_keepsExpiry hexp hrow hnone,
        fun parentId hname parent hpar hid hack =>
          Send.acknowledges_of_keepsRequirement hrequirement hname hpar hid hack⟩
    cases path with
    | sync =>
      dsimp only
      split
      · exact .refl db
      · exact persistSendMessage_threads hseen hgrown hinput
    | async verifiedTemplate cronRunFence =>
      dsimp only
      split
      · refine persistSendMessageAsync_threads hseen hgrown hinput (fun hdry hadmits linked => ?_)
        obtain ⟨-, -, htemplate⟩ := hparts hdry
        have hsome : (admittedTemplate input verifiedTemplate).isNone = false := by
          rw [isNone_eq_false_iff]
          exact hadmits
        rw [Send.continuesTemplate, Send.template, hsome, Bool.false_or] at htemplate
        exact Send.follows_of_continuesTemplate (hinput hdry) htemplate
      · exact .refl db

end Steps

/-- The states of a run of sends, the latest one first. A send reads the mailbox of its recipient in some state of the
run, and the writer runs in the latest. -/
inductive SendRun (world : World) (port : RenderPort) (allowed : Send → Db → Prop) : List Db → Prop where
  | start {db : Db} (hempty : db.mailMessages.rows = []) : SendRun world port allowed [db]
  | send {db : Db} {past : List Db} (send : Send) {seen : Db} (h : SendRun world port allowed (db :: past))
      (hseen : seen ∈ db :: past) (hallowed : allowed send db) :
      SendRun world port allowed ((send.persist world port seen db).2 :: db :: past)

/-- In a run of sends that keep the threads every state has sound threads and is an earlier form of the latest. -/
theorem SendRun.threads {world : World} {port : RenderPort} {states : List Db}
    (h : SendRun world port (fun send db => send.keepsThreads db = true) states) : ∀ db ∈ states, ThreadsSound db ∧
      ∀ latest, states.head? = some latest → GrownFrom db latest := by
  induction h with
  | start hempty =>
    intro db hdb
    obtain rfl := mem_singleton.mp hdb
    refine ⟨.of_empty hempty, fun latest hlatest mailbox => ?_⟩
    cases hlatest
    exact .refl Lasts.refl _
  | @send current past send seen h hseen hallowed ih =>
    obtain ⟨hseenSound, hseenGrown⟩ := ih seen hseen
    obtain ⟨hcur, -⟩ := ih current mem_cons_self
    obtain ⟨hs, hgrown⟩ := hcur.path (Send.persist_path hseenSound (hseenGrown current rfl) hallowed)
    intro db hdb
    rcases mem_cons.mp hdb with rfl | hdb
    · refine ⟨hs, fun latest hlatest mailbox => ?_⟩
      cases hlatest
      exact .refl Lasts.refl _
    · obtain ⟨hearlier, hearlierGrown⟩ := ih db hdb
      refine ⟨hearlier, fun latest hlatest mailbox => ?_⟩
      cases hlatest
      exact (hearlierGrown current rfl mailbox).trans Lasts.trans (hgrown mailbox)

/-- In every state of a run of sends, ordinary or of templates, synchronous or asynchronous and side by side, in which
each send keeps the threads, the threads of every mailbox are sound. -/
theorem sends_keep_threads {world : World} {port : RenderPort} {states : List Db}
    (h : SendRun world port (fun send db => send.keepsThreads db = true) states) {db : Db} (hdb : db ∈ states)
    (mailbox : MailboxScope) : SoundThreads (db.storedIn mailbox) :=
  .of_mailThreads ((h.threads db hdb).1.threads mailbox)

section Sample

def sampleMailbox : MailboxScope := ⟨sampleTeam, sampleMember⟩
def sampleOther : AgentName := ⟨"quality-mgr", by decide⟩

def samplePort : RenderPort := ⟨false, none⟩

/-- A request of a member of the team to another. -/
def sampleRequest (caller : AgentName) (source : SendMessageSource) : WriteRequest where
  callerIdentity := caller
  callerChatId := none
  callerTeam := sampleTeam
  authenticatedSourceHost := none
  originMessageId := none
  originTimestamp := none
  destination := some ⟨sampleMember, none, none, none, by decide⟩
  messageSource := source
  classification := ⟨none, [], none⟩
  requiresAck := false
  taskId := none
  placement := none
  taskOp := none
  taskComplete := none
  parentMessageId := none
  threadMode := none
  expiresAt := none
  acknowledgesMessageId := none
  dryRun := false
  daemonEscalationProvenance := false

def sampleInput (request : WriteRequest) (n : Nat) : SendInput where
  request := request
  context := ⟨sampleMailbox, request.callerIdentity, request.callerTeam, none⟩
  identity := ⟨"body", "summary", sampleId n, ⟨n⟩⟩
  now := ⟨100⟩
  ambient := .steady

def sampleTemplate : VerifiedTemplateSend where
  sha := "sha"
  includeReferences := []
  outputFormat := "text"
  contentBytes := []
  contentText := ""
  parts := .ok ⟨none, none, .null, [], [], none⟩

/-- The lead asks for an acknowledgement. -/
def sampleRoot : Send :=
  ⟨.sync, sampleInput { sampleRequest sampleLead (.inline "body") with requiresAck := true } 1⟩

/-- A message behind the `n`-th one. -/
def sampleDetails (path : SendPath) (request : WriteRequest) (parent n : Nat) : Send :=
  ⟨path, sampleInput { request with parentMessageId := some (sampleId parent), threadMode := some .addDetails } n⟩

/-- The lead adds details, first in an ordinary message and then by a template. -/
theorem details_keep_thread :
    ∃ db : Db, (db.storedIn sampleMailbox).length = 3 ∧ SoundThreads (db.storedIn sampleMailbox) := by
  have hroot : SendRun .accepting samplePort (fun send db => send.keepsThreads db = true) _ :=
    .send sampleRoot (.start (show Db.empty.mailMessages.rows = [] from rfl)) mem_cons_self (by decide +kernel)
  have hplain : SendRun .accepting samplePort (fun send db => send.keepsThreads db = true) _ :=
    .send (sampleDetails .sync (sampleRequest sampleLead (.inline "body")) 1 2) hroot mem_cons_self
      (by decide +kernel)
  have hrun : SendRun .accepting samplePort (fun send db => send.keepsThreads db = true) _ :=
    .send (sampleDetails (.async (some sampleTemplate) none)
      { sampleRequest sampleLead .template with requiresAck := true } 2 3) hplain mem_cons_self (by decide +kernel)
  exact ⟨_, by decide +kernel, sends_keep_threads hrun mem_cons_self sampleMailbox⟩

/-- Another member follows up on the message of the lead by a template, which expires. -/
theorem template_breaks_thread : ∃ states, SendRun .accepting samplePort (fun _ _ => True) states ∧
      ∃ db ∈ states, ¬ SoundThreads (db.storedIn sampleMailbox) := by
  refine ⟨_, .send (sampleDetails (.async (some sampleTemplate) none)
    { sampleRequest sampleOther .template with expiresAt := some ⟨1000⟩ } 1 2)
    (.send sampleRoot (.start (show Db.empty.mailMessages.rows = [] from rfl)) mem_cons_self trivial)
      mem_cons_self trivial, _, mem_cons_self, fun hsound => ?_⟩
  have hbroken : (((sampleDetails (.async (some sampleTemplate) none)
      { sampleRequest sampleOther .template with expiresAt := some ⟨1000⟩ } 1 2).persist .accepting samplePort
        (sampleRoot.persist .accepting samplePort .empty .empty).2
        (sampleRoot.persist .accepting samplePort .empty .empty).2).2.storedIn sampleMailbox).any
      (fun message => message.parentMessageId.isSome && message.expiresAt.isSome) = true := by decide +kernel
  obtain ⟨message, hmessage, hpart⟩ := List.any_eq_true.mp hbroken
  obtain ⟨hparent, hexpires⟩ := Bool.and_eq_true_iff.mp hpart
  rw [hsound.lasting message hmessage (.inl hparent)] at hexpires
  cases hexpires

end Sample

end AtmCore
