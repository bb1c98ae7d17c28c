import AtmCore.SyncList
import AtmCore.MailboxIsolation

/-! The texts that the synchronous listing loads. It climbs from a message to the top of its thread, loads each message
of the way again and composes their texts. Where the way comes to no loop and every message of it is found by its key,
this is the text that the thread has in the whole mailbox. -/

namespace AtmCore

open Relation List Option ReflTransGen ThreadIndex

/-- No row of the key has a template to render. -/
def RendersPlain (port : RenderPort) (key : MessageKey) (db : Db) : Prop :=
  port.catalog = true → ∀ row ∈ db.mailMessages.rows, row.messageKey = key →
    ∀ sha, row.templateSha = some sha → db.templates.find? sha = none

variable {port : RenderPort}

theorem RendersPlain.renderMessageBody_eq {key : MessageKey} {db : Db}
    (h : RendersPlain port key db) {envelope : MessageEnvelope} :
    renderMessageBody port key envelope db = .ok envelope := by
  rw [renderMessageBody]
  split
  · next hcatalog =>
    have hnone : db.mailMessages.rows.find? (fun row => decide (row.messageKey = key) &&
        row.templateSha.any (fun sha => (db.templates.find? sha).isSome)) = none := by
      rw [find?_eq_none]
      intro row hrow hf
      rw [Bool.and_eq_true, decide_eq_true_iff, Option.any_eq_true] at hf
      obtain ⟨hkey, sha, hsha, hsome⟩ := hf
      rw [h hcatalog row hrow hkey sha hsha] at hsome
      cases hsome
    rw [hnone]
    rfl
  · rfl

variable {fuel : Nat}

section Climb

variable {messages : List Message} {id x y : AtmMessageId} {ids : List AtmMessageId}

def listedIndex (messages : List Message) : ThreadIndex := ⟨messages.map Message.envelope⟩

theorem rowById_envelope : (rowById messages id).map Message.envelope = (listedIndex messages).message id := by
  rw [rowById, ThreadIndex.message, listedIndex, ← map_reverse, find?_map]
  rfl

theorem message_of_rowById {row : Message} (h : rowById messages x = some row) :
    (listedIndex messages).message x = some row.envelope := by
  rw [← rowById_envelope, h, map_some]

/-- The listed message of the first id names the second one as its parent. -/
def Above (messages : List Message) (x y : AtmMessageId) : Prop :=
  ∃ row, rowById messages x = some row ∧ row.envelope.parentMessageId = some y

/-- The way up from a message comes to a loop. -/
def LoopsAbove (messages : List Message) (x : AtmMessageId) : Prop :=
  ∃ y, ReflTransGen (Above messages) x y ∧ TransGen (Above messages) y y

/-- A climb that does not end passes one message at each step. -/
theorem chainIds_eq_none (h : chainIds messages fuel x = none) :
    ∃ path : List AtmMessageId, path.length = fuel ∧ (∀ y ∈ path.head?, y = x) ∧ path.IsChain (Above messages) ∧
      ∀ k ∈ path, ∃ shown, (listedIndex messages).message k = some shown := by
  fun_induction chainIds messages fuel x with
  | case1 => exact ⟨[], rfl, nofun, .nil, nofun⟩
  | case2 | case3 => cases h
  | case4 fuel x row hrow parent hpar ih =>
    obtain ⟨path, hlen, hhead, hchain, hpath⟩ := ih (map_eq_none_iff.mp h)
    refine ⟨x :: path, by rw [length_cons, hlen], fun y hy => (some.inj hy).symm,
      isChain_cons.mpr ⟨fun y hy => ?_, hchain⟩,
      forall_mem_cons.mpr ⟨⟨row.envelope, message_of_rowById hrow⟩, hpath⟩⟩
    rw [hhead y hy]
    exact ⟨row, hrow, hpar⟩

/-- A climb of more steps than there are messages has gone round. -/
theorem loopsAbove_of_chainIds (h : chainIds messages (messages.length + 1) x = none) : LoopsAbove messages x := by
  obtain ⟨path, hlen, hhead, hchain, hf⟩ := chainIds_eq_none h
  have hpairwise : path.Pairwise (TransGen (Above messages)) :=
    isChain_iff_pairwise.mp (hchain.imp (fun _ _ hlink => TransGen.single hlink))
  have hrepeats : ¬ path.Nodup := by
    intro hnd
    have hle := length_le_messages hnd hf
    rw [hlen, listedIndex, length_map] at hle
    omega
  rw [nodup_iff_sublist] at hrepeats
  push Not at hrepeats
  obtain ⟨y, htwice⟩ := hrepeats
  have hloop : TransGen (Above messages) y y := by simpa using hpairwise.sublist htwice
  cases path with
  | nil => cases hlen
  | cons first path =>
    obtain rfl := hhead first rfl
    rcases mem_cons.mp (htwice.subset mem_cons_self) with rfl | hy
    · exact ⟨y, .refl, hloop⟩
    · exact ⟨y, (rel_of_pairwise_cons hpairwise hy).to_reflTransGen, hloop⟩

theorem chainIds_of_loopsAbove (h : LoopsAbove messages x) : chainIds messages fuel x = none := by
  induction fuel generalizing x with
  | zero => rfl
  | succ fuel ih =>
    obtain ⟨z, hwalk, hloop⟩ := h
    obtain ⟨y, ⟨row, hrow, hpar⟩, hrest⟩ : ∃ y, Above messages x y ∧ ReflTransGen (Above messages) y z := by
      rcases cases_head hwalk with rfl | hstep
      · exact TransGen.head'_iff.mp hloop
      · exact hstep
    rw [chainIds, hrow]
    dsimp only
    rw [hpar]
    dsimp only
    rw [ih ⟨z, hrest, hloop⟩, map_none]

/-- Where the way up comes to no loop, the climb ends. -/
theorem exists_chainIds (h : ¬ LoopsAbove messages x) : ∃ ids, chainIds messages (messages.length + 1) x = some ids :=
  ne_none_iff_exists'.mp (fun hnone => h (loopsAbove_of_chainIds hnone))

/-- Where an id has one message, what replies in the index is what the climb finds. -/
theorem above_of_replies (hunbr : Unbranched (listedIndex messages).messages)
    (h : Replies (listedIndex messages).messages x y) : Above messages x y := by
  obtain ⟨message, hmem, hid, hparent⟩ := h
  have hfound := hunbr.ids.message_eq hmem hid
  rw [← rowById_envelope, map_eq_some_iff] at hfound
  obtain ⟨row, hrow, rfl⟩ := hfound
  exact ⟨row, hrow, hparent⟩

theorem reflTransGen_cases_of_found {index : ThreadIndex} (h : Unbranched index.messages) {shown : MessageEnvelope}
    (hf : index.message x = some shown) (hwalk : ReflTransGen (Replies index.messages) x y) :
    y = x ∨ ∃ parent, shown.parentMessageId = some parent ∧ ReflTransGen (Replies index.messages) parent y := by
  rcases cases_head hwalk with rfl | ⟨z, ⟨other, hother, hid, hpar⟩, hrest⟩
  · exact .inl rfl
  · obtain ⟨hmem, hid'⟩ := message_mem hf
    rw [h.ids shown hmem other hother x hid' hid] at hpar
    exact .inr ⟨z, hpar, hrest⟩

/-- The climb passes what is above the message and listed, and nothing else. -/
theorem mem_chainIds (hunbr : Unbranched (listedIndex messages).messages)
    (h : chainIds messages fuel x = some ids) (k : AtmMessageId) :
    k ∈ ids ↔ ReflTransGen (Replies (listedIndex messages).messages) x k ∧
      ∃ shown, (listedIndex messages).message k = some shown := by
  fun_induction chainIds messages fuel x generalizing ids with
  | case1 => cases h
  | case2 fuel x hrow =>
    cases h
    have hmissing : (listedIndex messages).message x = none := by rw [← rowById_envelope, hrow, map_none]
    refine iff_of_false not_mem_nil ?_
    rintro ⟨hwalk, shown, hshown⟩
    rcases cases_head hwalk with rfl | ⟨z, ⟨other, hother, hid, -⟩, -⟩
    · rw [hmissing] at hshown
      cases hshown
    · rw [hunbr.ids.message_eq hother hid] at hmissing
      cases hmissing
  | case3 fuel x row hrow hpar =>
    have hf := message_of_rowById hrow
    cases h
    rw [mem_singleton]
    constructor
    · rintro rfl
      exact ⟨.refl, row.envelope, hf⟩
    · rintro ⟨hwalk, -⟩
      rcases reflTransGen_cases_of_found hunbr hf hwalk with heq | ⟨parent, hsome, -⟩
      · exact heq
      · cases hpar.symm.trans hsome
  | case4 fuel x row hrow parent hpar ih =>
    have hf := message_of_rowById hrow
    obtain ⟨hmem, hid⟩ := message_mem hf
    obtain ⟨rest, hrest, rfl⟩ := map_eq_some_iff.mp h
    rw [mem_cons, ih hrest]
    constructor
    · rintro (rfl | ⟨hwalk, hshown⟩)
      · exact ⟨.refl, row.envelope, hf⟩
      · exact ⟨.head ⟨row.envelope, hmem, hid, hpar⟩ hwalk, hshown⟩
    · rintro ⟨hwalk, hshown⟩
      rcases reflTransGen_cases_of_found hunbr hf hwalk with heq | ⟨above, hsome, hrest⟩
      · exact .inl heq
      · obtain rfl := some.inj (hpar.symm.trans hsome)
        exact .inr ⟨hrest, hshown⟩

theorem mapM_chainIds {load : Message → Option Message}
    (hload : ∀ k ∈ ids, ∀ message, rowById messages k = some message → load message = some message)
    (hids : ∀ k ∈ ids, ∃ shown, (listedIndex messages).message k = some shown) :
    ∃ chain, ids.mapM (fun k => (rowById messages k).bind load) = some chain ∧
      ∀ shown, shown ∈ chain.map Message.envelope ↔ ∃ k ∈ ids, (listedIndex messages).message k = some shown := by
  induction ids with
  | nil => exact ⟨[], rfl, fun shown => iff_of_false not_mem_nil (fun ⟨k, hk, _⟩ => by cases hk)⟩
  | cons k ids ih =>
    obtain ⟨chain, hchain, hmem⟩ := ih (fun k' hk' => hload k' (mem_cons_of_mem k hk'))
      (fun k' hk' => hids k' (mem_cons_of_mem k hk'))
    obtain ⟨shown, hshown⟩ := hids k mem_cons_self
    rw [← rowById_envelope, map_eq_some_iff] at hshown
    obtain ⟨message, hmsg, -⟩ := hshown
    refine ⟨message :: chain, ?_, fun shown' => ?_⟩
    · rw [mapM_cons, hmsg, bind_some, hload k mem_cons_self message hmsg, hchain]
      rfl
    · rw [map_cons, mem_cons, hmem]
      constructor
      · rintro (rfl | ⟨k', hk', hf⟩)
        · exact ⟨k, mem_cons_self, message_of_rowById hmsg⟩
        · exact ⟨k', mem_cons_of_mem k hk', hf⟩
      · rintro ⟨k', hk', hf⟩
        rcases mem_cons.mp hk' with rfl | hk'
        · exact .inl (some.inj (hf.symm.trans (message_of_rowById hmsg)))
        · exact .inr ⟨k', hk', hf⟩

end Climb

/-- The message is found by its key. If it adds details, the way up from it comes to no loop, and each listed message of
the way is found by its key. -/
structure FoundIn (mailbox : MailboxScope) (messages : List Message) (db : Db) (message : Message) : Prop where
  own : loadMessageRecord mailbox message.messageKey db = some message
  ends : message.envelope.threadMode = some .addDetails → ∀ id, message.envelope.messageId = some id →
    ¬ LoopsAbove messages id
  above : message.envelope.threadMode = some .addDetails → ∀ id, message.envelope.messageId = some id →
    ∀ k, ReflTransGen (Above messages) id k → ∀ other, rowById messages k = some other →
      loadMessageRecord mailbox other.messageKey db = some other

variable {selected : MessageEnvelope}

section Composed

variable {mailbox : MailboxScope} {messages : List Message} {db : Db} {message : MessageEnvelope}

variable (hunbr : Unbranched (listedIndex messages).messages)
include hunbr

/-- What is composed of the loaded messages is what the whole index shows. -/
theorem loadLogicalCurrentRecord_eq (hmem : message ∈ (listedIndex messages).messages)
    (hloop : ∀ id, message.messageId = some id → ¬ LoopsAbove messages id)
    (hload : ∀ id, message.messageId = some id → ∀ k, ReflTransGen (Above messages) id k →
      ∀ other, rowById messages k = some other → loadMessageRecord mailbox other.messageKey db = some other)
    (hends : (listedIndex messages).ends message = true) :
    loadLogicalCurrentRecord mailbox messages selected message db =
      .ok { message with text := (listedIndex messages).logicalText message } := by
  rw [loadLogicalCurrentRecord]
  split
  · next hid =>
    have htext : (listedIndex messages).logicalText message = message.text := by rw [ThreadIndex.logicalText, hid]
    rw [htext]
  · next id hid =>
    have hf := hunbr.ids.message_eq hmem hid
    obtain ⟨ids, hids⟩ := exists_chainIds (hloop id hid)
    have hpass := mem_chainIds hunbr hids
    obtain ⟨chain, hchain, hloaded⟩ := mapM_chainIds
      (fun k hk => hload id hid k
        (ReflTransGen.mono (fun _ _ => above_of_replies hunbr) _ _ ((hpass k).mp (mem_reverse.mp hk)).1))
      (fun k hk => ((hpass k).mp (mem_reverse.mp hk)).2)
    -- the loaded messages are the part of the index that the climb passes
    have hpart : ThreadIndex.PartOf (fun shown => shown.messageId.any (fun k => decide (k ∈ ids)))
        ⟨chain.map Message.envelope⟩ (listedIndex messages) := by
      intro shown
      rw [hloaded, Option.any_eq_true]
      constructor
      · rintro ⟨k, hk, hshown⟩
        obtain ⟨hlist, hkey⟩ := message_mem hshown
        exact ⟨hlist, k, hkey, decide_eq_true (mem_reverse.mp hk)⟩
      · rintro ⟨hlist, k, hkey, hk⟩
        exact ⟨k, mem_reverse.mpr (of_decide_eq_true hk), hunbr.ids.message_eq hlist hkey⟩
    have hkeeps : message.messageId.any (fun k => decide (k ∈ ids)) = true := by
      rw [hid, any_some, decide_eq_true_iff, hpass]
      exact ⟨.refl, message, hf⟩
    have hnone :
      ¬ (listedIndex messages).LosesAbove (fun shown => shown.messageId.any (fun k => decide (k ∈ ids))) id := by
      rintro ⟨lost, hlost, hgoes, above, hab, hwalk⟩
      dsimp only at hgoes
      rw [hab, any_some, decide_eq_false_iff_not, hpass] at hgoes
      exact hgoes ⟨hwalk.to_reflTransGen, lost, hunbr.ids.message_eq hlost hab⟩
    have hch : (listedIndex messages).children id = [] := by
      rw [ThreadIndex.ends, hid, all_some, isTerminal_iff_loop hunbr] at hends
      refine hends.resolve_right (fun hround => hloop id hid ⟨id, .refl, ?_⟩)
      exact TransGen.mono (fun _ _ => above_of_replies hunbr) _ _ hround
    have hterm : (⟨chain.map Message.envelope⟩ : ThreadIndex).isTerminal id = true := by
      refine isTerminal_of_children (hpart.children_eq_nil_iff.mpr ?_)
      intro successor hsucc
      rw [hch] at hsucc
      cases hsucc
    have hf' : (⟨chain.map Message.envelope⟩ : ThreadIndex).message id = some message := by
      rw [hpart.message_of_above hunbr hmem hkeeps hid hnone .refl, hf]
    rw [hids]
    dsimp only
    rw [hchain]
    dsimp only
    rw [logicalCurrentEnvelope_of_terminal hf' hid hterm,
      hpart.logicalText_of_above hunbr hmem hkeeps hid hnone hends]

/-- The text that the listing loads for a message at the end of its thread. -/
theorem loadDurableMessageText_eq {record : Message} (hrec : record ∈ messages)
    (hfound : FoundIn mailbox messages db record) (hends : (listedIndex messages).ends record.envelope = true)
    (hplain : RendersPlain port record.messageKey db) :
    loadDurableMessageText port mailbox messages selected record.messageKey db =
      .ok ((listedIndex messages).logicalText record.envelope) := by
  have hmem : record.envelope ∈ (listedIndex messages).messages := List.mem_map_of_mem hrec
  rw [loadDurableMessageText, hfound.own]
  dsimp only
  by_cases hmode : record.envelope.threadMode = some .addDetails
  · rw [if_pos hmode, loadLogicalCurrentRecord_eq hunbr hmem (hfound.ends hmode) (hfound.above hmode) hends,
      Fallible.bind_ok, hplain.renderMessageBody_eq]
    rfl
  · have htext : (listedIndex messages).logicalText record.envelope = record.envelope.text := by
      rw [ThreadIndex.logicalText]
      split
      · rfl
      · exact if_neg (fun h => hmode h.1)
    rw [if_neg hmode, Fallible.bind_ok, hplain.renderMessageBody_eq, htext]
    rfl

end Composed

end AtmCore
