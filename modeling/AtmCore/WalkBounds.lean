import AtmCore.DurableTexts

/-! How long the walks along a thread take, on messages with any links. The three walks of the index keep what they have
passed and move at most once for each message. The climb of the synchronous listing keeps nothing: it ends just when
it does not come to a loop. -/

namespace AtmCore

open List

namespace ThreadIndex

/-- The loop of `root_id`, stopped when it has moved so often. -/
def rootWithin (index : ThreadIndex) (moves : Nat) (seen : List AtmMessageId) (current : AtmMessageId) :
    Option (Option AtmMessageId) :=
  match index.message current with
  | none => some none
  | some message =>
    match message.parentMessageId with
    | none => some (some current)
    | some parentId =>
      if current ∈ seen then some (some current)
      else match moves with
        | 0 => none
        | moves + 1 => index.rootWithin moves (current :: seen) parentId

def terminalWithin (index : ThreadIndex) (moves : Nat) (seen : List AtmMessageId) (current : AtmMessageId) :
    Option (Option AtmMessageId) :=
  if current ∈ seen then some (some current)
  else match index.primarySuccessor current with
    | none => some (some current)
    | some successor =>
      match successor.messageId with
      | none => some none
      | some next =>
        match moves with
        | 0 => none
        | moves + 1 => index.terminalWithin moves (current :: seen) next

def chainWithin (index : ThreadIndex) (moves : Nat) (seen : List AtmMessageId) :
    Option AtmMessageId → Option (List MessageEnvelope)
  | none => some []
  | some id =>
    if id ∈ seen then some []
    else match index.message id with
      | none => some []
      | some message =>
        match moves with
        | 0 => none
        | moves + 1 => (index.chainWithin moves (id :: seen)
            ((index.primarySuccessor id).bind MessageEnvelope.messageId)).map (message :: ·)

variable {index : ThreadIndex} {fuel moves : Nat} {seen : List AtmMessageId} {current : AtmMessageId}

/-- Ids with a successor are no more than the messages: each is the parent of another one. -/
theorem length_le_links (hnd : seen.Nodup) (hlink : ∀ x ∈ seen, ∃ next, index.primarySuccessor x = some next) :
    seen.length ≤ index.messages.length := by
  have hsubset : seen ⊆ index.messages.filterMap MessageEnvelope.parentMessageId := by
    intro x hx
    obtain ⟨next, hnext⟩ := hlink x hx
    obtain ⟨hmem, hpar⟩ := primarySuccessor_mem hnext
    exact mem_filterMap.mpr ⟨next, hmem, hpar⟩
  calc seen.length
      _ ≤ (index.messages.filterMap MessageEnvelope.parentMessageId).length :=
        (subperm_of_subset hnd hsubset).length_le
      _ ≤ index.messages.length := length_filterMap_le _ _

variable (hnd : seen.Nodup) (hmoves : index.messages.length ≤ moves + seen.length) (hfuel : moves < fuel)
include hnd hmoves hfuel

theorem rootWithin_eq (hf : ∀ x ∈ seen, ∃ shown, index.message x = some shown) :
    index.rootWithin moves seen current = some (index.rootLoop fuel seen current) := by
  fun_induction index.rootLoop fuel seen current generalizing moves with
  | case1 => cases hfuel
  | case2 fuel seen current hmsg => simp [rootWithin, hmsg]
  | case3 fuel seen current message hmsg hpar => simp [rootWithin, hmsg, hpar]
  | case4 fuel seen current message hmsg parentId hpar hpass => simp [rootWithin, hmsg, hpar, hpass]
  | case5 fuel seen current message hmsg parentId hpar hpass ih =>
    have hnd' := nodup_cons.mpr ⟨hpass, hnd⟩
    have hf' := forall_mem_cons.mpr ⟨⟨message, hmsg⟩, hf⟩
    have hlen := length_le_messages hnd' hf'
    rw [length_cons] at hlen
    cases moves with
    | zero => omega
    | succ moves =>
      rw [rootWithin, hmsg]
      dsimp only
      rw [hpar]
      dsimp only
      rw [if_neg hpass]
      exact ih hnd' (by rw [length_cons]; omega) (Nat.lt_of_succ_lt_succ hfuel) hf'

theorem terminalWithin_eq (hlink : ∀ x ∈ seen, ∃ next, index.primarySuccessor x = some next) :
    index.terminalWithin moves seen current = some (index.terminalLoop fuel seen current) := by
  fun_induction index.terminalLoop fuel seen current generalizing moves with
  | case1 => cases hfuel
  | case2 fuel seen current hpass => simp [terminalWithin, hpass]
  | case3 fuel seen current hpass hnone => simp [terminalWithin, hpass, hnone]
  | case4 fuel seen current hpass successor hsucc hid => simp [terminalWithin, hpass, hsucc, hid]
  | case5 fuel seen current hpass successor hsucc next hid ih =>
    have hnd' := nodup_cons.mpr ⟨hpass, hnd⟩
    have hlink' := forall_mem_cons.mpr ⟨⟨successor, hsucc⟩, hlink⟩
    have hlen := length_le_links hnd' hlink'
    rw [length_cons] at hlen
    cases moves with
    | zero => omega
    | succ moves =>
      rw [terminalWithin, if_neg hpass, hsucc]
      dsimp only
      rw [hid]
      exact ih hnd' (by rw [length_cons]; omega) (Nat.lt_of_succ_lt_succ hfuel) hlink'

theorem chainWithin_eq {current : Option AtmMessageId} (hf : ∀ x ∈ seen, ∃ shown, index.message x = some shown) :
    index.chainWithin moves seen current = some (index.chainLoop fuel seen current) := by
  fun_induction index.chainLoop fuel seen current generalizing moves with
  | case1 => cases hfuel
  | case2 => simp [chainWithin]
  | case3 fuel seen id hpass => simp [chainWithin, hpass]
  | case4 fuel seen id hpass hmsg => simp [chainWithin, hpass, hmsg]
  | case5 fuel seen id hpass message hmsg ih =>
    have hnd' := nodup_cons.mpr ⟨hpass, hnd⟩
    have hf' := forall_mem_cons.mpr ⟨⟨message, hmsg⟩, hf⟩
    have hlen := length_le_messages hnd' hf'
    rw [length_cons] at hlen
    cases moves with
    | zero => omega
    | succ moves =>
      rw [chainWithin, if_neg hpass, hmsg]
      dsimp only
      rw [ih hnd' (by rw [length_cons]; omega) (Nat.lt_of_succ_lt_succ hfuel) hf', Option.map_some]

end ThreadIndex

theorem loadLogicalCurrentRecord_endless_iff {mailbox : MailboxScope} {rows : List Message} {db : Db}
    {selected terminal : MessageEnvelope} :
    loadLogicalCurrentRecord mailbox rows selected terminal db = .error .endless ↔
      ∃ id, terminal.messageId = some id ∧ LoopsAbove rows id := by
  rw [loadLogicalCurrentRecord]
  cases terminal.messageId with
  | none => simp
  | some id =>
    dsimp only
    cases hids : chainIds rows (rows.length + 1) id with
    | none => simp [loopsAbove_of_chainIds hids]
    | some ids =>
      have hnone : ¬ LoopsAbove rows id := by
        intro hloop
        rw [chainIds_of_loopsAbove hloop] at hids
        cases hids
      refine iff_of_false ?_ ?_
      · dsimp only
        split
        · intro h
          cases h
        · split <;> · intro h; cases h
      · rintro ⟨other, hother, hloop⟩
        exact hnone (Option.some.inj hother ▸ hloop)

/-- The walks of the index return after at most as many moves as there are messages, whatever the links are. The load of
a single record returns just when the way up from it comes to no loop, after at most as many moves as there are rows; it
climbs for ever else. -/
theorem thread_walks_return_iff (index : ThreadIndex) (id : AtmMessageId) (mailbox : MailboxScope) (rows : List Message)
    (selected terminal : MessageEnvelope) (db : Db) :
    index.rootWithin index.messages.length [] id = some (index.rootId id) ∧
    index.terminalWithin index.messages.length [] id = some (index.terminalId id) ∧
    (∀ rootId, index.rootId id = some rootId →
      index.chainWithin index.messages.length [] (some rootId) = some (index.chainMessages id)) ∧
    (loadLogicalCurrentRecord mailbox rows selected terminal db ≠ .error .endless ↔
      ∀ terminalId, terminal.messageId = some terminalId → ¬ LoopsAbove rows terminalId) ∧
    ∀ terminalId, (¬ LoopsAbove rows terminalId → ∃ ids, chainIds rows (rows.length + 1) terminalId = some ids) ∧
      (LoopsAbove rows terminalId → ∀ fuel, chainIds rows fuel terminalId = none) := by
  refine ⟨ThreadIndex.rootWithin_eq nodup_nil (Nat.le_refl _) (Nat.lt_succ_self _) nofun,
    ThreadIndex.terminalWithin_eq nodup_nil (Nat.le_refl _) (by omega) nofun,
    fun rootId hroot => ?_, ?_, fun _ => ⟨exists_chainIds, fun hloop _ => chainIds_of_loopsAbove hloop⟩⟩
  · rw [ThreadIndex.chainMessages, hroot]
    exact ThreadIndex.chainWithin_eq nodup_nil (Nat.le_refl _) (Nat.lt_succ_self _) nofun
  · rw [Ne, loadLogicalCurrentRecord_endless_iff]
    simp

/-- A message that adds details to itself. -/
def sampleSelfReply : Message := sampleUpdate .addDetails 2 (sampleMessage sampleLead sampleMember 2)

theorem self_reply_climbs_for_ever : (∀ fuel, chainIds [sampleSelfReply] fuel ⟨2, by decide⟩ = none) ∧
    loadLogicalCurrentRecord sampleMailbox [sampleSelfReply] sampleSelfReply.envelope sampleSelfReply.envelope .empty =
      .error .endless := by
  have hlink : Above [sampleSelfReply] ⟨2, by decide⟩ ⟨2, by decide⟩ := ⟨sampleSelfReply, rfl, rfl⟩
  have hloop : LoopsAbove [sampleSelfReply] ⟨2, by decide⟩ := ⟨_, .refl, .single hlink⟩
  exact ⟨fun _ => chainIds_of_loopsAbove hloop, loadLogicalCurrentRecord_endless_iff.mpr ⟨_, rfl, hloop⟩⟩

end AtmCore
