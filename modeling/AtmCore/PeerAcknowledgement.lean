import AtmCore.PeerUnseen

/-! Acknowledgements beside the mail of peers. The acknowledgement of a message of a peer is unseen. That of a local
message loads, on two stores that are the same locally, the same source up to its read flag, which neither the reply
nor the acknowledged source depends on. -/

namespace AtmCore

open Rows Fallible Lockstep Option

variable {kind : AtomicAcknowledgementKind} {fresh : AtmMessageId} {now : IsoTimestamp} {ambient : Ambient}
  {record : Message}

section Acknowledging

variable {peers : Foreign} {db db' : Db} {source : AcknowledgementSource}

theorem Message.IsReply.links {reply : Message} {id : AtmMessageId} (h : reply.IsReply id) :
    reply.links = .ofId id := by
  simp only [Message.links, Links.ofId, h.messageId, h.messageKey, h.unparented]

theorem builder_unaudited {message : Message} :
    Ensures Fault.unaudited (fun reply => reply.IsReply (kind.replyId fresh))
      ((kind.builder fresh now).buildReply message) := by
  show Ensures _ _ (Outcome.lift (kind.buildReply fresh now message))
  cases hbuild : kind.buildReply fresh now message with
  | ok reply => exact kind.buildReply_isReply fresh now hbuild
  | error error => exact (kind.buildReply_plain fresh now hbuild).2

theorem executeAcknowledgement_unseen {world : World} {provenance : MessageWriteOrigin}
    (hsrc : peers.id source.messageId = true) (hreply : peers.Inside (.ofId (kind.replyId fresh)))
    (hparts : peers.Parts db.mailMessages) : Ensures Fault.unaudited (fun result => Unseen peers db result.2.2)
      (executeAcknowledgement world ambient source (kind.builder fresh now) provenance db) := by
  refine ((validateCronGenerationFence_plain provenance db.cronSchedules).weaken Fault.unaudited_of_plain).bind
    (fun _ _ => ?_)
  refine ((loadPendingAckSource_plain).weaken Fault.unaudited_of_plain).bind ?_
  rintro message ⟨row, hfind, hid⟩
  have hmessageKey : peers.key message.messageKey = true := by
    rw [← show row.messageKey = message.messageKey from congrArg (fun key => key.2.2) (Table.key_of_find? hfind)]
    rcases hparts row (Table.mem_of_find? hfind) with hins | hout
    · exact hins.key
    · have hfalse := hout.id source.messageId hid
      rw [hsrc] at hfalse
      cases hfalse
  refine (builder_unaudited).bind (fun reply hrepl => ?_)
  have hins : peers.Inside reply.links := hrepl.links ▸ hreply
  have hgrows := upsertMessage_grows world (ambient.from 1) reply .local db
  refine ((upsertMessage_unseen (.inl hrepl.untasked) hins hparts).and_eq).bind ?_
  rintro ⟨result, written⟩ ⟨hwr, hrun⟩
  obtain ⟨stored, hst⟩ := isSome_iff_exists.mp
    ((hgrows.of_eq_ok hrun).stored message.mailKey (isSome_iff_exists.mpr ⟨row, hfind⟩))
  have hackKey : peers.key (markSourceAcknowledged message (ambient.clock 0)).messageKey = true := hmessageKey
  refine (upsertMessage_unseen_of_present hackKey hst hwr.parts).bind ?_
  rintro ⟨result', written'⟩ hwr'
  exact hwr.trans hwr'

/-- The row of a local source is the same on both sides, and so is what its state records. -/
theorem Alike.acknowledgementSourceRow (h : Alike peers db db') (hsrc : peers.id source.messageId = false) :
    (AtmCore.acknowledgementSourceRow source db = none ∧ AtmCore.acknowledgementSourceRow source db' = none) ∨
      ∃ row state state', AtmCore.acknowledgementSourceRow source db = some (row, state) ∧
        AtmCore.acknowledgementSourceRow source db' = some (row, state') ∧ state.mark = state'.mark ∧
        peers.key row.messageKey = false := by
  unfold AtmCore.acknowledgementSourceRow
  rw [peers.find?_localRows (h.parts.local_of_id hsrc), peers.find?_localRows (h.parts'.local_of_id hsrc), ← h.mail,
    ← peers.find?_localRows (h.parts.local_of_id hsrc)]
  cases hrow : db.mailMessages.rows.find? (fun row => decide (row.team = source.team) &&
      decide (row.agent = source.agent) && decide (row.messageId = some source.messageId)) with
  | none => exact .inl ⟨rfl, rfl⟩
  | some row =>
    have hf := List.find?_some hrow
    have hkey := h.parts.local_of_id hsrc row (List.mem_of_find?_eq_some hrow) hf
    have hmarks := h.marks row.key hkey
    simp only [bind, Option.bind]
    cases hleft : db.messageStates.find? row.key with
    | none =>
      rw [hleft] at hmarks
      rw [map_eq_none_iff.mp hmarks.symm]
      exact .inl ⟨rfl, rfl⟩
    | some state =>
      rw [hleft] at hmarks
      obtain ⟨state', hr, hmark⟩ := map_eq_some_iff.mp hmarks.symm
      have hdel : state'.deletedAt = state.deletedAt := congrArg StateMark.deletedAt hmark
      rw [hr]
      by_cases hlive : state.deletedAt = none
      · refine .inr ⟨row, state, state', ?_, ?_, hmark.symm, hkey⟩
        · simp [Option.filter, hlive, pure]
        · simp [Option.filter, hdel, hlive, pure]
      · refine .inl ⟨?_, ?_⟩
        · simp [Option.filter, hlive]
        · simp [Option.filter, hdel, hlive]

theorem Alike.hasSuccessor (h : Alike peers db db') (hsrc : peers.parent source.messageId = false) :
    AtmCore.hasSuccessor source db = AtmCore.hasSuccessor source db' := by
  have hloc : ∀ {t : Table MailRow.key}, peers.Parts t → ∀ row ∈ t.rows,
      (decide (row.team = source.team) && decide (row.agent = source.agent) &&
        decide (row.parentMessageId = some source.messageId)) = true → peers.key row.messageKey = false := by
    intro t ht row hrow hf
    simp only [Bool.and_eq_true, decide_eq_true_eq] at hf
    cases hkey : peers.key row.messageKey with
    | false => rfl
    | true =>
      rw [(ht.inside hrow hkey).parent source.messageId hf.2] at hsrc
      cases hsrc
  unfold AtmCore.hasSuccessor
  rw [peers.any_localRows (hloc h.parts), peers.any_localRows (hloc h.parts'), h.mail]

/-- A local source is loaded with the same message on both sides, up to its read flag. -/
theorem Alike.loadPendingAckSource (h : Alike peers db db') (hsrc : peers.id source.messageId = false) :
    AgreesFrom (fun message message' => peers.key message.messageKey = false ∧ ∃ read, message' =
        { message with envelope := { message.envelope with read := read } })
      (AtmCore.loadPendingAckSource source) db db' := by
  unfold AgreesFrom AtmCore.loadPendingAckSource
  rcases h.acknowledgementSourceRow hsrc with ⟨hleft, hr⟩ | ⟨row, state, state', hleft, hr, hmark, hkey⟩
  · rw [hleft, hr]
    rfl
  · obtain ⟨hrow, -, -, hid, -⟩ := acknowledgementSourceRow_eq_some hleft
    have hunfollowed := (h.parts.outside hrow hkey).unfollowed source.messageId hid
    simp only [MessageStateRow.mark, StateMark.mk.injEq] at hmark
    obtain ⟨hpend, hack, hexp, -⟩ := hmark
    rw [hleft, hr]
    dsimp only
    rw [← h.hasSuccessor hunfollowed, ← hpend, ← hack, ← hexp]
    split
    · rfl
    split
    · rfl
    · exact ⟨hkey, state'.read, rfl⟩

theorem Beside.upsertMessage (h : Beside peers db db') (world : World) (hrec : peers.Outside record.links)
    (hfr : ∀ n, peers.Outside (.ofId (ambient.fresh n))) (provenance : MessageWriteOrigin) :
    AgreesFrom (fun result result' => result.1.inserted = result'.1.inserted ∧ Beside peers result.2 result'.2)
      (AtmCore.upsertMessage world ambient record provenance) db db' := by
  have hlink := upsertMessage_linked world ambient provenance hrec.id h.linked
  refine ((h.toAlike.upsertMessage world hrec h.linked hfr provenance).and_returns hlink (returns_any _)).mono ?_
  rintro result result' ⟨⟨hins, halike⟩, hres, -⟩
  exact ⟨hins, halike, hres⟩

theorem Beside.upsertMessage_of_present (h : Beside peers db db') (world : World) (ambient : Ambient)
    (provenance : MessageWriteOrigin) (hkey : peers.key record.messageKey = false) {stored : MailRow}
    (hst : db.mailMessages.find? record.mailKey = some stored) :
    AgreesFrom (After (Beside peers)) (AtmCore.upsertMessage world ambient record provenance) db db' := by
  have hledger := (executeUpsertMessage_of_present world 1 ambient provenance hst).returns
  refine ((h.toAlike.admitMessage_of_present world _ ambient provenance hkey hst).and_returns hledger
    (returns_any _)).mono ?_
  rintro result result' ⟨⟨-, halike⟩, hsame, -⟩
  refine ⟨halike, ?_⟩
  rw [hsame.tasks]
  exact h.linked

theorem Beside.executeAcknowledgement (h : Beside peers db db') (world : World)
    (hfr : ∀ n, peers.Outside (.ofId (ambient.fresh n))) (kind : AtomicAcknowledgementKind)
    (fresh : AtmMessageId) (now : IsoTimestamp) (provenance : MessageWriteOrigin)
    (hsrc : peers.id source.messageId = false) (hreply : peers.Outside (.ofId (kind.replyId fresh))) :
    AgreesFrom (fun result result' => Beside peers result.2.2 result'.2.2)
      (AtmCore.executeAcknowledgement world ambient source (kind.builder fresh now) provenance) db db' := by
  unfold AgreesFrom AtmCore.executeAcknowledgement
  rw [← h.schedules]
  refine agrees_bind_self (fun _ _ => ?_)
  rcases (h.toAlike.loadPendingAckSource hsrc).cases with ⟨error, hleft, hr⟩ |
    ⟨message, message', hleft, hr, hkey, read, hread⟩
  · rw [hleft, hr]
    rfl
  · obtain ⟨row, hfind, -⟩ := (loadPendingAckSource_plain).of_eq_ok hleft
    have hbuild : (kind.builder fresh now).buildReply message' = (kind.builder fresh now).buildReply message := by
      rw [hread]
      cases kind <;> rfl
    rw [hleft, hr, Fallible.bind_ok, Fallible.bind_ok, hbuild, hread, markSourceAcknowledged_read]
    refine agrees_bind_self (fun reply hbuilt => ?_)
    have hrepl := (builder_unaudited).of_eq_ok hbuilt
    have hout : peers.Outside reply.links := hrepl.links ▸ hreply
    have hgrows := upsertMessage_grows world (ambient.from 1) reply .local db
    have hlater : ∀ n, peers.Outside (.ofId ((ambient.from 1).fresh n)) := fun n => hfr (1 + n)
    refine ((h.upsertMessage world hout hlater .local).and_returns hgrows (returns_any _)).bind ?_
    rintro ⟨result, written⟩ ⟨result', written'⟩ ⟨⟨-, hwr⟩, hgrown, -⟩
    obtain ⟨stored, hst⟩ := isSome_iff_exists.mp
      (hgrown.stored message.mailKey (isSome_iff_exists.mpr ⟨row, hfind⟩))
    have hackKey : peers.key (markSourceAcknowledged message (ambient.clock 0)).messageKey = false := hkey
    exact (hwr.upsertMessage_of_present world _ .local hackKey hst).bind (fun result result' hres => hres)

end Acknowledging

end AtmCore
