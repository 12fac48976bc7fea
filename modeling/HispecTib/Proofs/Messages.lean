import HispecTib.Proofs.Exchange
import HispecTib.Proofs.Replies

/-!
# Messages in the queues

A message that some loop holds or that waits in a queue was made in one of three ways (`Made`): as
the reply of a dispatch, as a rejection of the MQTT handler, or from a pair of photodiode samples.
`Step.messages` says so for one step. Each of the three makers fills the fields within their bounds
(`Made.publishable`), so every queued message can be published.
-/

open CLib

namespace Tib

/-! ## Messages that can be published -/

/-- What the main loop relies on when it publishes a message: no field is read past its end. -/
structure Publishable (om : OutMsg) : Prop where
  payloadLen_eq : om.payloadLen = strlen om.payload.data
  payloadLen_lt : om.payloadLen < maxPayloadLen
  topic_ne : om.topic.cstr ≠ []
  topic_lt : strlen om.topic.data < maxTopicLen
  corrLen_le : om.corrLen ≤ maxCorrelationData

/-- The topic of a reply is the default one, or one from the command that fits. -/
theorem msgBuilder_topic_cases (cmd : Command) (typ : MsgType) (msg : List Byte) :
    (msgBuilder cmd typ msg).topic.cstr = str "cmd/hsfib-tib/resp" ∨
      (0 < (msgBuilder cmd typ msg).topic.cstr.length ∧
        (msgBuilder cmd typ msg).topic.cstr.length < maxTopicLen) := by
  by_cases h : 0 < cmd.responseTopic.cstr.length ∧ cmd.responseTopic.cstr.length < maxTopicLen
  · rw [msgBuilder_topic rfl h.1 h.2]
    exact Or.inr h
  · left
    have hno : ¬ (0 < strlen cmd.responseTopic.data ∧
      strlen cmd.responseTopic.data < maxTopicLen) := h
    simp only [msgBuilder, if_neg hno]
    decide

theorem msgBuilder_publishable (cmd : Command) (typ : MsgType) {msg : List Byte}
    (h : strlen msg < maxPayloadLen) : Publishable (msgBuilder cmd typ msg) := by
  have htopic := msgBuilder_topic_cases cmd typ msg
  refine ⟨?_, h, ?_, ?_, ?_⟩
  · exact (congrArg List.length (msgBuilder_payload cmd typ h)).symm
  · rcases htopic with hd | hl
    · rw [hd]
      decide
    · exact List.ne_nil_of_length_pos hl.1
  · change (msgBuilder cmd typ msg).topic.cstr.length < maxTopicLen
    rcases htopic with hd | hl
    · rw [hd]
      decide
    · exact hl.2
  · simp only [msgBuilder]
    split_ifs with hc
    · exact hc.2.le
    · exact Nat.zero_le _

theorem AnswersAs.publishable {cmd : Command} {om : OutMsg}
    (h : AnswersAs (fun _ msg => strlen msg < maxPayloadLen) cmd om) : Publishable om := by
  obtain ⟨typ, msg, hfits, rfl⟩ := h
  exact msgBuilder_publishable cmd typ hfits

/-- A text that fits with its NUL is printed whole. -/
theorem cstr_print {n : Nat} {text : List Byte} (h0 : (0 : Byte) ∉ text) (hlen : text.length < n) :
    ((Buf.zero n).write 0 (snprintf n text)).cstr = text := by
  have htake : snprintf n text = text := List.take_of_length_le (by omega)
  unfold Buf.cstr
  rw [htake, Buf.write_data_of_le _ (by omega), List.take_zero, List.nil_append, cstr_append h0,
    Buf.zero_drop_cstr, List.append_nil]

section Samples

variable (yj hk : Int16) (time : Int64)

/-- The print of a pair of samples: fixed parts, two numbers of 16 bits and one of 64. -/
def photodiodeText : List Byte :=
  str "\x7b\"yj\":" ++ decimalInt yj.toInt ++ str ", \"hk\":" ++
    decimalInt hk.toInt ++ str ", \"time\":" ++ decimalInt time.toInt ++ str "\x7d"

theorem photodiodeText_length : (photodiodeText yj hk time).length < maxPayloadLen := by
  have h₁ : (decimalInt yj.toInt).length ≤ 6 := by
    have := yj.le_toInt
    have := yj.toInt_lt
    exact decimalInt_length_le (by decide) (by omega)
  have h₂ : (decimalInt hk.toInt).length ≤ 6 := by
    have := hk.le_toInt
    have := hk.toInt_lt
    exact decimalInt_length_le (by decide) (by omega)
  have h₃ : (decimalInt time.toInt).length ≤ 20 := by
    have := time.le_toInt
    have := time.toInt_lt
    exact decimalInt_length_le (by decide) (by omega)
  have hfixed : (str "\x7b\"yj\":").length + (str ", \"hk\":").length +
      (str ", \"time\":").length + (str "\x7d").length = 23 := by decide
  have hmax : maxPayloadLen = 256 := rfl
  simp only [photodiodeText, List.length_append]
  omega

theorem zero_notMem_photodiodeText : (0 : Byte) ∉ photodiodeText yj hk time := by
  have hfixed : ∀ s ∈ [str "\x7b\"yj\":", str ", \"hk\":", str ", \"time\":", str "\x7d"],
      (0 : Byte) ∉ s := by decide
  simp only [List.forall_mem_cons] at hfixed
  obtain ⟨h₁, h₂, h₃, h₄, -⟩ := hfixed
  simp only [photodiodeText, List.mem_append, not_or]
  exact ⟨⟨⟨⟨⟨⟨h₁, zero_notMem_decimalInt _⟩, h₂⟩, zero_notMem_decimalInt _⟩, h₃⟩,
    zero_notMem_decimalInt _⟩, h₄⟩

theorem photodiodeMsg_publishable : Publishable (photodiodeMsg yj hk time) := by
  have hlen := photodiodeText_length yj hk time
  have hcstr : (photodiodeMsg yj hk time).payload.cstr = photodiodeText yj hk time :=
    cstr_print (zero_notMem_photodiodeText yj hk time) hlen
  have htopic : (photodiodeMsg yj hk time).topic.cstr = str "dt/hsfib-tib/photodiode" :=
    cstr_print (by decide) (by decide)
  refine ⟨?_, hlen, ?_, ?_, Nat.zero_le _⟩
  · exact (congrArg List.length hcstr).symm
  · rw [htopic]
    decide
  · change (photodiodeMsg yj hk time).topic.cstr.length < maxTopicLen
    rw [htopic]
    decide

end Samples

/-! ## Where messages come from -/

section Sources

variable (env : Env)

/-- The ways to make a message. -/
inductive Made : OutMsg → Prop
  | reply (cmd : Command) (w : World) : Made (dispatch env cmd w).val
  | rejection (pub : Publish) (inbound : InboundQueue) {om : OutMsg}
      (h : (mqttCommandSubmit env pub inbound).2.2 = some om) : Made om
  | samples (yj hk : Int16) (time : Int64) : Made (photodiodeMsg yj hk time)

def Photodiode.held : Photodiode → List OutMsg
  | .sampling => []
  | .storing msg | .purging msg => [msg]

/-- Every message that waits in a queue or is held by a loop. -/
def Firmware.messages (s : Firmware) : List OutMsg :=
  s.outbound.items.map Prod.snd ++ s.photodiodeQueue.items ++ s.executor.pending ++
    s.rejection.toList ++ s.photodiode.held ++ s.sample.toList

variable {env} {w : World} {s t : Firmware} {om : OutMsg}

/-- The messages of the fields. -/
theorem mem_messages : om ∈ s.messages ↔ (∃ sender, (sender, om) ∈ s.outbound.items) ∨
    om ∈ s.photodiodeQueue.items ∨ om ∈ s.executor.pending ∨ s.rejection = some om ∨
    om ∈ s.photodiode.held ∨ s.sample = some om := by
  simp only [Firmware.messages, List.mem_append, List.mem_map, Prod.exists, exists_eq_right,
    Option.mem_toList, or_assoc]

theorem mem_offer {α : Type} {cap : Nat} {q : MsgQueue α cap} {a b : α}
    (h : b ∈ (q.offer a).items) : b ∈ q.items ∨ b = a := by
  rcases q.offer_items a with hq | hq
  · simpa [hq] using h
  · exact Or.inl (hq ▸ h)

/-- **Steps.** A message is as it was before the step, or it is newly made. -/
theorem Step.messages {l : Label} (hst : Step env s l t) (h : om ∈ t.messages) :
    om ∈ s.messages ∨ Made env om := by
  rw [mem_messages] at h ⊢
  cases hst with
  | receive pub _ =>
    rcases h with h | h | h | h | h
    · exact Or.inl (Or.inl h)
    · exact Or.inl (by tauto)
    · exact Or.inl (by tauto)
    · exact Or.inr (.rejection pub _ h)
    · exact Or.inl (by tauto)
  | reject hr =>
    rcases h with ⟨sender, h⟩ | h | h | h | h
    · rcases mem_offer h with h | h
      · exact Or.inl (Or.inl ⟨sender, h⟩)
      · cases h
        exact Or.inl (by tauto)
    · exact Or.inl (by tauto)
    · exact Or.inl (by tauto)
    · cases h
    · exact Or.inl (by tauto)
  | take _ hq =>
    rcases h with ⟨sender, h⟩ | h
    · rw [MsgQueue.get?_items hq]
      exact Or.inl (Or.inl ⟨sender, List.mem_cons_of_mem _ h⟩)
    · exact Or.inl (Or.inr h)
  | fetch _ _ =>
    rcases h with h | h | h | h
    · exact Or.inl (Or.inl h)
    · exact Or.inl (by tauto)
    · cases h
    · exact Or.inl (by tauto)
  | dispatch _ =>
    rcases h with h | h | h | h
    · exact Or.inl (Or.inl h)
    · exact Or.inl (by tauto)
    · rw [List.mem_singleton.mp h]
      exact Or.inr (.reply _ _)
    · exact Or.inl (by tauto)
  | deliver he hq =>
    rcases h with ⟨sender, h⟩ | h | h | h
    · rw [MsgQueue.put?_items hq, List.mem_append, List.mem_singleton] at h
      rcases h with h | h
      · exact Or.inl (Or.inl ⟨sender, h⟩)
      · cases h
        rw [he]
        exact Or.inl (Or.inr (Or.inr (Or.inl List.mem_cons_self)))
    · exact Or.inl (by tauto)
    · cases h
    · exact Or.inl (by tauto)
  | measure yj hk time _ =>
    rcases h with h | h | h | h | h | h
    · exact Or.inl (Or.inl h)
    · exact Or.inl (by tauto)
    · exact Or.inl (by tauto)
    · exact Or.inl (by tauto)
    · rw [List.mem_singleton.mp h]
      exact Or.inr (.samples yj hk time)
    · exact Or.inl (by tauto)
  | store hp hq =>
    rcases h with h | h | h | h | h | h
    · exact Or.inl (Or.inl h)
    · rw [MsgQueue.put?_items hq, List.mem_append, List.mem_singleton] at h
      rcases h with h | rfl
      · exact Or.inl (by tauto)
      · rw [hp]
        exact Or.inl (Or.inr (Or.inr (Or.inr (Or.inr (Or.inl List.mem_cons_self)))))
    · exact Or.inl (by tauto)
    · exact Or.inl (by tauto)
    · cases h
    · exact Or.inl (by tauto)
  | full hp _ =>
    rw [hp]
    exact Or.inl h
  | purge hp =>
    rcases h with h | h | h
    · exact Or.inl (Or.inl h)
    · cases h
    · rw [hp]
      exact Or.inl (Or.inr (Or.inr h))
  | collect _ hq =>
    rcases h with h | h | h | h | h | h
    · exact Or.inl (Or.inl h)
    · rw [MsgQueue.get?_items hq]
      exact Or.inl (Or.inr (Or.inl (List.mem_cons_of_mem _ h)))
    · exact Or.inl (by tauto)
    · exact Or.inl (by tauto)
    · exact Or.inl (by tauto)
    · cases h
      rw [MsgQueue.get?_items hq]
      exact Or.inl (Or.inr (Or.inl List.mem_cons_self))
  | forward hsample =>
    rcases h with ⟨sender, h⟩ | h | h | h | h | h
    · rcases mem_offer h with h | h
      · exact Or.inl (Or.inl ⟨sender, h⟩)
      · cases h
        exact Or.inl (by tauto)
    · exact Or.inl (by tauto)
    · exact Or.inl (by tauto)
    · exact Or.inl (by tauto)
    · exact Or.inl (by tauto)
    · cases h

/-- **Runs.** -/
theorem messages_made (h : (firmware env w).Reachable s) : ∀ om ∈ s.messages, Made env om := by
  refine h.of_steps (P := fun s : Firmware => ∀ om ∈ s.messages, Made env om) ?_ ?_
  · rintro s rfl om hom
    cases hom
  · intro s l t hs hst om hom
    rcases hst.messages hom with h | h
    · exact hs om h
    · exact h

/-- The handler's own replies are the two fixed ones. -/
theorem submit_reply {pub : Publish} {inbound : InboundQueue}
    (h : (mqttCommandSubmit env pub inbound).2.2 = some om) :
    ∃ cmd, om = invalidCommandResponse cmd ∨ om = busyResponse cmd := by
  unfold mqttCommandSubmit at h
  split at h
  · rename_i why cmd _
    change (if why.replies then _ else _) = _ at h
    split_ifs at h
    exact ⟨cmd, Or.inl (Option.some.inj h).symm⟩
  · rename_i cmd _
    split at h
    · cases h
    · exact ⟨cmd, Or.inr (Option.some.inj h).symm⟩

theorem Made.publishable (h : Made env om) : Publishable om := by
  cases h with
  | reply cmd w => exact (dispatch_fits env cmd w).publishable
  | rejection pub inbound h =>
    obtain ⟨cmd, rfl | rfl⟩ := submit_reply h
    · exact msgBuilder_publishable cmd _ (worded_error (by decide)).fits
    · exact msgBuilder_publishable cmd _ (worded_error (by decide)).fits
  | samples yj hk time => exact photodiodeMsg_publishable yj hk time

/-- **Every queued message can be published.** -/
theorem queued_publishable (h : (firmware env w).Reachable s) :
    (∀ m ∈ s.outbound.items, Publishable m.2) ∧
      ∀ om ∈ s.photodiodeQueue.items, Publishable om := by
  have hall := messages_made h
  refine ⟨fun m hm => ?_, fun om hom => ?_⟩
  · exact (hall m.2 (mem_messages.mpr (Or.inl ⟨m.1, hm⟩))).publishable
  · exact (hall om (mem_messages.mpr (Or.inr (Or.inl hom)))).publishable

/-- A run with one sample in each of the two queues. -/
theorem samples_publishable :
    ∃ s : Firmware, (firmware setEnv .boot).Reachable s ∧
      s.outbound.items = [(.photodiode, photodiodeMsg 1 2 3)] ∧
      s.photodiodeQueue.items = [photodiodeMsg (-4) 5 6] ∧
      (∀ m ∈ s.outbound.items, Publishable m.2) ∧
        ∀ om ∈ s.photodiodeQueue.items, Publishable om := by
  have h0 : (firmware setEnv .boot).Reachable (.boot .boot) := .start rfl
  have h1 := h0.next (Step.measure 1 2 3 rfl)
  have h2 := h1.next (Step.store rfl rfl)
  have h3 := h2.next (Step.collect rfl rfl)
  have h4 := h3.next (Step.forward rfl)
  have h5 := h4.next (Step.measure (-4) 5 6 rfl)
  have h6 := h5.next (Step.store rfl rfl)
  exact ⟨_, h6, rfl, rfl, queued_publishable h6⟩

end Sources

end Tib
