import HispecTib.Proofs.Wording

/-!
# Where replies go

Every reply is built by `msgBuilder` from the command that it answers (`dispatch_answers`), and
`msgBuilder` takes the topic and the correlation data from that command. `reply_returns_iff`: the
response topic always comes back, the correlation data unless it fills its array.
-/

open CLib

namespace Tib

/-! ## Every reply is built from its command -/

section Answers

variable (env : Env) (cmd : Command)

/-- The reply is built by `msgBuilder` for `cmd`. -/
def Answers (om : OutMsg) : Prop := ∃ typ msg, om = msgBuilder cmd typ msg

/-- Whatever the key, the type, the payload and the state: the reply is built from the command. -/
theorem dispatch_answers : Yields (dispatch env cmd) (Answers cmd) := by
  intro w
  obtain ⟨typ, msg, -, hom⟩ := dispatch_fits env cmd w
  exact ⟨typ, msg, hom⟩

end Answers

/-! ## Topic and correlation data -/

section Returns

/-- The replies of a publish that is enqueued or rejected as busy, in any state. -/
inductive ReplyTo (env : Env) (pub : Publish) (om : OutMsg) : Prop
  | busy (inbound : InboundQueue) (h : (mqttCommandSubmit env pub inbound).1 = .busy)
      (hom : (mqttCommandSubmit env pub inbound).2.2 = some om)
  | executed (inbound : InboundQueue) (cmd : Command) (w : World)
      (h : (mqttCommandSubmit env pub inbound).1 = .enqueued cmd)
      (hom : om = (dispatch env cmd w).val)

/-- The reply carries the response topic and the correlation data of the publish. -/
structure Returns (pub : Publish) (topic : List Byte) (om : OutMsg) : Prop where
  topic_eq : om.topic.cstr = topic
  corrLen_eq : om.corrLen = pub.correlationData.length
  corr_eq : om.correlationData.data.take om.corrLen = pub.correlationData

theorem ReplyTo.answers {env : Env} {pub : Publish} {om : OutMsg} (h : ReplyTo env pub om) :
    ∃ cmd, Decoded pub cmd ∧ Answers cmd om := by
  cases h with
  | executed inbound cmd w h hom =>
    exact ⟨cmd, decoded_of_ok (decode_of_enqueued h), hom ▸ dispatch_answers env cmd w⟩
  | busy inbound h hom =>
    cases hd : mqttCommandDecode env pub with
    | error e =>
      obtain ⟨why, _⟩ := e
      rw [submit_of_error hd] at h
      cases h
    | ok cmd =>
      simp only [mqttCommandSubmit, hd] at h hom
      split at hom
      · cases hom
      · exact ⟨cmd, decoded_of_ok hd, _, _, (Option.some.inj hom).symm⟩

variable {pub : Publish} {cmd : Command} {topic : List Byte}

theorem Decoded.responseTopic_cstr (h : Decoded pub cmd) (ht : pub.responseTopic = some topic)
    (h0 : (0 : Byte) ∉ topic) : cmd.responseTopic.cstr = topic := by
  obtain ⟨t, ht', hlen, hbuf⟩ := h.topic_eq
  obtain rfl : t = topic := Option.some.inj (ht'.symm.trans ht)
  rw [hbuf, Buf.cstr_memcpy_write _ le_rfl hlen (by rwa [List.take_length]), List.take_length]

/-- The second `strncpy` replaces the default topic, and the last byte stays NUL. -/
theorem msgBuilder_topic (hc : cmd.responseTopic.cstr = topic) (hpos : 0 < topic.length)
    (hlt : topic.length < maxTopicLen) (typ : MsgType) (msg : List Byte) :
    (msgBuilder cmd typ msg).topic.cstr = topic := by
  have hlen : strlen cmd.responseTopic.data = topic.length := congrArg List.length hc
  simp only [msgBuilder, hlen, hpos, hlt, and_self, if_true]
  have htail : cstr (((Buf.zero maxTopicLen).strncpy (str "cmd/hsfib-tib/resp")
      (maxTopicLen - 1)).data.drop (maxTopicLen - 1)) = [] := by
    rw [Buf.strncpy_drop _ _ (Nat.sub_le _ _)]
    exact Buf.zero_drop_cstr _ _
  rw [Buf.cstr_strncpy _ _ (Nat.sub_le _ _) htail]
  change cmd.responseTopic.cstr.take (maxTopicLen - 1) = topic
  rw [hc]
  exact List.take_of_length_le (by omega)

/-- `msgBuilder` echoes the correlation data that the command holds. -/
theorem msgBuilder_corr (hlen : cmd.corrLen < maxCorrelationData) (typ : MsgType)
    (msg : List Byte) :
    (msgBuilder cmd typ msg).corrLen = cmd.corrLen ∧
      (msgBuilder cmd typ msg).correlationData.data.take cmd.corrLen =
        cmd.correlationData.data.take cmd.corrLen := by
  by_cases hpos : 0 < cmd.corrLen
  · have hecho : 0 < cmd.corrLen ∧ cmd.corrLen < maxCorrelationData := ⟨hpos, hlen⟩
    have hk : cmd.corrLen ≤ cmd.correlationData.data.length := by
      rw [cmd.correlationData.size_eq]
      exact hlen.le
    simp only [msgBuilder, if_pos hecho, Buf.memcpy_data _ hk hlen.le, true_and]
    rw [List.take_append_of_le_length (by rw [List.length_take]; omega), List.take_take,
      Nat.min_self]
  · have hzero : cmd.corrLen = 0 := by omega
    simp [msgBuilder, hzero]

/-- **Replies go back to the requester.** A reply to a publish with a usable response topic carries
that topic, and carries the correlation data exactly when they do not fill their array. -/
theorem reply_returns_iff {env : Env} {om : OutMsg} (h : ReplyTo env pub om)
    (ht : pub.responseTopic = some topic) (hpos : 0 < topic.length)
    (hlt : topic.length < maxTopicLen) (h0 : (0 : Byte) ∉ topic) :
    Returns pub topic om ↔ pub.correlationData.length < maxCorrelationData := by
  obtain ⟨cmd, hd, typ, msg, rfl⟩ := h.answers
  have hlen : cmd.corrLen < maxCorrelationData := by
    rw [hd.corrLen_eq]
    split_ifs with hl
    · exact hl
    · decide
  obtain ⟨hcl, hcd⟩ := msgBuilder_corr hlen typ msg
  constructor
  · intro hr
    rw [← hr.corrLen_eq, hcl]
    exact hlen
  · intro hl
    have heq : cmd.corrLen = pub.correlationData.length := by rw [hd.corrLen_eq, if_pos hl]
    refine ⟨msgBuilder_topic (hd.responseTopic_cstr ht h0) hpos hlt typ msg, hcl.trans heq, ?_⟩
    rw [hcl, hcd, hd.corr_eq, heq, Buf.memcpy_data _ le_rfl hl.le, List.take_length,
      List.take_left]

theorem setPublish_replyTo (corr : List Byte) :
    ∃ cmd, Decoded { setPublish with correlationData := corr } cmd ∧
      ReplyTo setEnv { setPublish with correlationData := corr } (dispatch setEnv cmd .boot).val := by
  obtain ⟨cmd, hcmd, hd⟩ := setPublish_decodes corr
  exact ⟨cmd, hd, .executed .empty cmd .boot (submit_of_ok hcmd _) rfl⟩

/-- Sixteen bytes of correlation data, the size of the array, do not come back. -/
theorem sixteen_bytes_lost :
    ∃ om, ReplyTo setEnv { setPublish with correlationData := List.replicate 16 7 } om ∧
      ¬ Returns { setPublish with correlationData := List.replicate 16 7 } (str "client/1") om := by
  obtain ⟨cmd, hd, hr⟩ := setPublish_replyTo (List.replicate 16 7)
  refine ⟨_, hr, fun h => ?_⟩
  obtain ⟨typ, msg, hom⟩ := dispatch_answers setEnv cmd .boot
  have hlen : cmd.corrLen = 0 := hd.corrLen_eq
  have hcl : (msgBuilder cmd typ msg).corrLen = cmd.corrLen :=
    (msgBuilder_corr (by rw [hlen]; decide) typ msg).1
  have hsize := h.corrLen_eq
  rw [hom, hcl, hlen] at hsize
  exact absurd hsize (by decide)

/-- One byte comes back. -/
theorem one_byte_returned :
    ∃ om, ReplyTo setEnv { setPublish with correlationData := [7] } om ∧
      Returns { setPublish with correlationData := [7] } (str "client/1") om := by
  obtain ⟨cmd, -, hr⟩ := setPublish_replyTo [7]
  exact ⟨_, hr, (reply_returns_iff hr rfl (by decide) (by decide)
    (by decide)).mpr (by decide)⟩

end Returns

end Tib
