import HispecTib.Proofs.Replies

/-!
# Publishes that are not enqueued

* **Where rejections go** (`rejection_returns_iff`): the early returns build their reply from a
  command whose response topic and correlation data are still empty, so the reply goes to the
  default topic.
* **Silence** (`handledOnce_iff`): a payload that fills its array ends the handler without a reply,
  and a reply that finds `outbound_queue` full is lost.
-/

open CLib

namespace Tib

/-! ## Where rejections go -/

section Addresses

variable {env : Env} {pub : Publish} {cmd : Command} {why : Rejection}

/-- No early return comes after the response topic and the correlation data are stored. -/
theorem decode_error_bare (h : mqttCommandDecode env pub = .error (why, cmd)) :
    cmd.responseTopic = .zero _ ∧ cmd.corrLen = 0 := by
  simp only [mqttCommandDecode] at h
  split at h
  · cases h; exact ⟨rfl, rfl⟩
  split at h
  · cases h; exact ⟨rfl, rfl⟩
  split at h
  · cases h; exact ⟨rfl, rfl⟩
  split at h
  · cases h; exact ⟨rfl, rfl⟩
  · cases h; exact ⟨rfl, rfl⟩
  · split at h
    · cases h; exact ⟨rfl, rfl⟩
    · split at h <;> cases h

/-- A reply is put for a rejection only, and it is the fixed one. -/
theorem submit_rejected {inbound : InboundQueue} {om : OutMsg}
    (h : (mqttCommandSubmit env pub inbound).1 = .rejected why)
    (hom : (mqttCommandSubmit env pub inbound).2.2 = some om) :
    ∃ cmd, mqttCommandDecode env pub = .error (why, cmd) ∧ om = invalidCommandResponse cmd := by
  cases hd : mqttCommandDecode env pub with
  | ok cmd =>
    rw [submit_of_ok hd] at h
    split_ifs at h
  | error e =>
    obtain ⟨why', cmd⟩ := e
    simp only [mqttCommandSubmit, hd, Exit.rejected.injEq] at h hom
    subst h
    split_ifs at hom
    exact ⟨cmd, rfl, (Option.some.inj hom).symm⟩

/-- The topic of a reply to a command without a response topic. -/
def defaultTopic : List Byte := str "cmd/hsfib-tib/resp"

theorem msgBuilder_default (h : cmd.responseTopic = .zero _) (typ : MsgType) (msg : List Byte) :
    (msgBuilder cmd typ msg).topic.cstr = defaultTopic := by
  simp only [msgBuilder, h]
  decide

/-- **Where rejections go.** The rejection of a publish with a response topic carries that topic
and the correlation data exactly when the topic is the default one and there are no data. -/
theorem rejection_returns_iff {inbound : InboundQueue} {om : OutMsg} {topic : List Byte}
    (h : (mqttCommandSubmit env pub inbound).1 = .rejected why)
    (hom : (mqttCommandSubmit env pub inbound).2.2 = some om)
    (ht : pub.responseTopic = some topic) :
    Returns pub topic om ↔ pub.responseTopic = some defaultTopic ∧ pub.correlationData = [] := by
  obtain ⟨cmd, hd, rfl⟩ := submit_rejected h hom
  obtain ⟨htopic, hcorr⟩ := decode_error_bare hd
  have hto : (invalidCommandResponse cmd).topic.cstr = defaultTopic := msgBuilder_default htopic _ _
  have hlen : (invalidCommandResponse cmd).corrLen = 0 := by
    simp [invalidCommandResponse, errorReply, msgBuilder, hcorr]
  constructor
  · intro hr
    refine ⟨?_, ?_⟩
    · rw [ht, ← hr.topic_eq, hto]
    · exact List.eq_nil_of_length_eq_zero (hr.corrLen_eq.symm.trans hlen)
  · rintro ⟨hdef, hnil⟩
    obtain rfl : topic = defaultTopic := Option.some.inj (ht.symm.trans hdef)
    refine ⟨hto, ?_, ?_⟩
    · rw [hlen, hnil]
      rfl
    · rw [hlen, hnil, List.take_zero]

/-- `setPublish` on the bare command prefix, so that its key is empty. -/
def keylessPublish : Publish := { setPublish with topic := mqttCmdPrefix }

theorem keyless_hasPrefix : keylessPublish.HasPrefix := by
  unfold Publish.HasPrefix
  decide

theorem keyless_not_keyFits : ¬ keylessPublish.KeyFits := by
  unfold Publish.KeyFits
  decide

/-- The key is refused before the handler looks at the properties. -/
theorem keyless_badKey (topic : Option (List Byte)) (corr : List Byte) :
    mqttCommandDecode setEnv
      { keylessPublish with responseTopic := topic, correlationData := corr } =
        .error (.badKey, .zero) :=
  decode_badKey keyless_hasPrefix keyless_not_keyFits

/-- An empty key is rejected to the default topic, not to the one that the publish names. -/
theorem keyless_not_returned :
    ∃ om, keylessPublish.HasPrefix ∧
      (mqttCommandSubmit setEnv keylessPublish .empty).1 = .rejected .badKey ∧
      (mqttCommandSubmit setEnv keylessPublish .empty).2.2 = some om ∧
      keylessPublish.responseTopic = some (str "client/1") ∧
      ¬ Returns keylessPublish (str "client/1") om := by
  have hd : mqttCommandDecode setEnv keylessPublish = .error (.badKey, .zero) :=
    keyless_badKey (some (str "client/1")) [7]
  refine ⟨invalidCommandResponse .zero, keyless_hasPrefix, submit_of_error hd _, ?_, rfl,
    fun hr => ?_⟩
  · simp only [mqttCommandSubmit, hd]
    rfl
  · have hto : (invalidCommandResponse .zero).topic.cstr = defaultTopic :=
      msgBuilder_default rfl _ _
    exact absurd (hr.topic_eq.symm.trans hto) (by decide)

/-- A publish that names the default topic gets its rejection. -/
theorem keyless_default_returned :
    ∃ om, Returns { keylessPublish with
      responseTopic := some defaultTopic, correlationData := [] } defaultTopic om := by
  have hd := keyless_badKey (some defaultTopic) []
  refine ⟨invalidCommandResponse .zero, (rejection_returns_iff (submit_of_error hd .empty) ?_
    rfl).mpr ⟨rfl, rfl⟩⟩
  simp only [mqttCommandSubmit, hd]
  rfl

end Addresses

/-! ## Silence -/

section Silence

variable (env : Env) (pub : Publish) (inbound : InboundQueue) (outbound : OutboundQueue)

/-- One command is put on `inbound_queue`, or one rejection on `outbound_queue`, and the other
queue stays as it is. The handler accesses a queue at most once, so `inbound` and `outbound` are
what the queues hold at that moment. -/
inductive HandledOnce : InboundQueue → OutboundQueue → Prop
  | enqueued {inbound' : InboundQueue} (cmd : Command)
      (h : inbound'.items = inbound.items ++ [cmd]) : HandledOnce inbound' outbound
  | rejected {outbound' : OutboundQueue} (cmd : Command) (om : OutMsg)
      (hom : om = invalidCommandResponse cmd ∨ om = busyResponse cmd)
      (h : outbound'.items = outbound.items ++ [om]) : HandledOnce inbound outbound'

/-- The handler reaches its put on `inbound_queue`. -/
def Publish.Accepted : Prop := pub.KeyFits ∧ bodyRefusal env pub = none

/-- The payload leaves room for a NUL, unless the key is already refused; and `outbound_queue` has
room for a rejection, unless there is none. -/
def Answerable : Prop :=
  (pub.KeyFits → pub.payload.length < maxPayloadLen) ∧
    (outbound.items.length < 8 ∨
      pub.Accepted env ∧ inbound.items.length < maxPendingCommands)

variable {env pub inbound outbound}

/-- A put of a rejection that does not wait. -/
theorem handledOnce_offer_iff {cmd : Command} {om : OutMsg}
    (hom : om = invalidCommandResponse cmd ∨ om = busyResponse cmd) :
    HandledOnce inbound outbound inbound (outbound.offer om) ↔ outbound.items.length < 8 := by
  rw [← MsgQueue.offer_eq_append_iff outbound om]
  constructor
  · intro h
    generalize hout : outbound.offer om = outbound' at h
    cases h with
    | enqueued cmd' h => simp at h
    | rejected cmd' om' hom' h =>
      rcases outbound.offer_items om with hq | hq
      · exact hout ▸ hq
      · rw [← hout, hq] at h
        simp at h
  · exact fun h => .rejected cmd om hom h

theorem not_handledOnce_unchanged : ¬ HandledOnce inbound outbound inbound outbound := by
  intro h
  cases h with
  | enqueued cmd h => simp at h
  | rejected cmd om hom h => simp at h

theorem handledOnce_enqueued {inbound' : InboundQueue} {cmd : Command}
    (h : inbound.put? cmd = some inbound') : HandledOnce inbound outbound inbound' outbound :=
  .enqueued cmd (MsgQueue.put?_items h)

/-! The handler on the two queues, one lemma for each kind of exit. -/

theorem handler_of_reply {om : OutMsg} (hq : (mqttCommandSubmit env pub inbound).2.1 = inbound)
    (hom : (mqttCommandSubmit env pub inbound).2.2 = some om) :
    (mqttCommandHandler env pub inbound outbound).2 = (inbound, outbound.offer om) := by
  simp only [mqttCommandHandler, hq, hom, Option.map_some, Option.getD_some]

theorem handler_of_silence (hom : (mqttCommandSubmit env pub inbound).2.2 = none) :
    (mqttCommandHandler env pub inbound outbound).2 =
      ((mqttCommandSubmit env pub inbound).2.1, outbound) := by
  simp only [mqttCommandHandler, hom, Option.map_none, Option.getD_none]

/-- An early return: the reply, if it has one, needs room. -/
theorem handledOnce_of_error {why : Rejection} {cmd : Command}
    (hd : mqttCommandDecode env pub = .error (why, cmd)) :
    HandledOnce inbound outbound (mqttCommandHandler env pub inbound outbound).2.1
        (mqttCommandHandler env pub inbound outbound).2.2 ↔
      why.replies = true ∧ outbound.items.length < 8 := by
  have hsub : mqttCommandSubmit env pub inbound = (.rejected why, inbound,
      if why.replies then some (invalidCommandResponse cmd) else none) := by
    simp only [mqttCommandSubmit, hd]
  cases hr : why.replies with
  | true =>
    have hreply : (mqttCommandSubmit env pub inbound).2.2 = some (invalidCommandResponse cmd) := by
      rw [hsub, hr]
      rfl
    rw [handler_of_reply (by rw [hsub]) hreply, handledOnce_offer_iff (Or.inl rfl)]
    simp
  | false =>
    have hnone : (mqttCommandSubmit env pub inbound).2.2 = none := by
      rw [hsub, hr]
      rfl
    rw [handler_of_silence hnone, hsub]
    simpa using not_handledOnce_unchanged

/-- A command: it is enqueued, or the busy reply needs room. -/
theorem handledOnce_of_ok {cmd : Command} (hd : mqttCommandDecode env pub = .ok cmd) :
    HandledOnce inbound outbound (mqttCommandHandler env pub inbound outbound).2.1
        (mqttCommandHandler env pub inbound outbound).2.2 ↔
      outbound.items.length < 8 ∨ inbound.items.length < maxPendingCommands := by
  cases hput : inbound.put? cmd with
  | some inbound' =>
    have hsub : mqttCommandSubmit env pub inbound = (.enqueued cmd, inbound', none) := by
      simp only [mqttCommandSubmit, hd, hput]
    have hroom : inbound.items.length < maxPendingCommands := by
      refine lt_of_le_of_ne inbound.bounded fun hfull => ?_
      rw [MsgQueue.put?_eq_none.mpr hfull] at hput
      cases hput
    rw [handler_of_silence (by rw [hsub]), hsub]
    exact iff_of_true (handledOnce_enqueued hput) (Or.inr hroom)
  | none =>
    have hsub : mqttCommandSubmit env pub inbound = (.busy, inbound, some (busyResponse cmd)) := by
      simp only [mqttCommandSubmit, hd, hput]
    have hfull := MsgQueue.put?_eq_none.mp hput
    rw [handler_of_reply (by rw [hsub]) (by rw [hsub]), handledOnce_offer_iff (Or.inr rfl)]
    omega

/-- The only early return behind the key without a reply is the one for long payloads. -/
theorem bodyRefusal_replies {why : Rejection} (h : bodyRefusal env pub = some why) :
    why.replies = true ↔ pub.payload.length < maxPayloadLen := by
  unfold bodyRefusal at h
  split_ifs at h with hlen <;> obtain rfl := Option.some.inj h <;>
    simp only [Rejection.replies, true_iff, Bool.false_eq_true, false_iff] <;> omega

theorem bodyRefusal_none_payload (h : bodyRefusal env pub = none) :
    pub.payload.length < maxPayloadLen := by
  unfold bodyRefusal at h
  split_ifs at h with hlen
  omega

/-- **Silence.** A publish on the command prefix leaves one command or one rejection exactly when
its payload leaves room for a NUL and the reply, if there is one, finds room. -/
theorem handledOnce_iff (h : pub.HasPrefix) :
    HandledOnce inbound outbound (mqttCommandHandler env pub inbound outbound).2.1
        (mqttCommandHandler env pub inbound outbound).2.2 ↔
      Answerable env pub inbound outbound := by
  unfold Answerable Publish.Accepted
  by_cases hk : pub.KeyFits
  · cases hb : bodyRefusal env pub with
    | none =>
      obtain ⟨cmd, hd, -⟩ := decode_ok h hk hb
      have hlen := bodyRefusal_none_payload hb
      rw [handledOnce_of_ok hd]
      simp [hk, hlen]
    | some why =>
      obtain ⟨cmd, hd⟩ := decode_refused h hk hb
      rw [handledOnce_of_error hd, bodyRefusal_replies hb]
      simp [hk]
  · rw [handledOnce_of_error (decode_badKey h hk)]
    simp [hk, Rejection.replies]

/-- `setPublish` with a payload of 256 bytes, which is what the client reads at most. -/
def longPublish : Publish := { setPublish with payload := List.replicate 256 32 }

/-- A payload of 256 bytes is dropped, with both queues empty. -/
theorem longPublish_dropped :
    longPublish.HasPrefix ∧ ¬ HandledOnce .empty .empty
      (mqttCommandHandler setEnv longPublish .empty .empty).2.1
      (mqttCommandHandler setEnv longPublish .empty .empty).2.2 := by
  have hpre : longPublish.HasPrefix := setPublish_usable.1
  have hk : longPublish.KeyFits := setPublish_usable.2
  have hb : bodyRefusal setEnv longPublish = some .payloadTooLong := by decide +kernel
  obtain ⟨cmd, hd⟩ := decode_refused hpre hk hb
  refine ⟨hpre, ?_⟩
  rw [handledOnce_of_error hd]
  decide

/-- A rejection that finds eight messages in `outbound_queue` is lost, too. -/
theorem keyless_dropped (om : OutMsg) :
    ¬ HandledOnce .empty ⟨List.replicate 8 om, le_rfl⟩
      (mqttCommandHandler setEnv keylessPublish .empty ⟨List.replicate 8 om, le_rfl⟩).2.1
      (mqttCommandHandler setEnv keylessPublish .empty ⟨List.replicate 8 om, le_rfl⟩).2.2 := by
  have hd : mqttCommandDecode setEnv keylessPublish = .error (.badKey, .zero) :=
    keyless_badKey (some (str "client/1")) [7]
  rw [handledOnce_of_error hd]
  simp

/-- The command of `setPublish` is enqueued, once. -/
theorem setPublish_handledOnce :
    HandledOnce .empty .empty (mqttCommandHandler setEnv setPublish .empty .empty).2.1
      (mqttCommandHandler setEnv setPublish .empty .empty).2.2 :=
  (handledOnce_iff setPublish_usable.1).mpr ⟨fun _ => by decide, Or.inl (by decide)⟩

end Silence

end Tib
