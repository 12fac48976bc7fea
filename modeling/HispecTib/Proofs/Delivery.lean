import HispecTib.Base.Sys
import HispecTib.Commons.MqttClient
import Mathlib.Logic.Function.Basic

/-!
# What the user callback gets

* **One PUBLISH** (`inStep_iff`): the handler reads once, so it delivers the payload and leaves
  nothing unread exactly when that read returns the whole payload.
* **QoS 2** (`exactlyOnce_iff`): the handler sends the PUBREC before it reads, and it does not
  remember packet ids. Over a session with a broker, every acknowledged message is delivered
  exactly once as long as first transmissions are read and retransmissions are not.
-/

open CLib

namespace Tib

/-! ## One PUBLISH -/

section Publish

variable {η : Type} {lib : MqttLib} {c : Client η} {param : PublishParam η} {payload : List Byte}

/-- The return code of the one read. -/
def readCode (lib : MqttLib) (c : Client η) (payload : List Byte) : Int :=
  lib.readPublishPayload c.reads cooMqttPayloadSize payload.length

theorem record_callbacks (c : Client η) (param : PublishParam η) (payload : List Byte) :
    (c.record (.userMqttCb param payload)).callbacks = c.callbacks ++ [(param, payload)] := by
  simp [Client.callbacks, Client.record]

/-- An acknowledgement adds its PUBREC, if it is one, to the log, and nothing else. -/
theorem acknowledge_spec (param : PublishParam η) (c : Client η) :
    (acknowledge param c).callbacks = c.callbacks ∧
      (acknowledge param c).pubcomps = c.pubcomps ∧
      (acknowledge param c).pubrecs =
        c.pubrecs ++ if param.qos = 2 then [param.messageId] else [] := by
  unfold acknowledge
  split_ifs with h₁ h₂
  · omega
  all_goals simp [Client.record, Client.callbacks, Client.pubcomps, Client.pubrecs]

theorem acknowledge_fields (param : PublishParam η) (c : Client η) :
    (acknowledge param c).unread = c.unread ∧ (acknowledge param c).reads = c.reads ∧
      (acknowledge param c).userMqttCb = c.userMqttCb := by
  unfold acknowledge
  split_ifs <;> exact ⟨rfl, rfl, rfl⟩

theorem acknowledge_unread (param : PublishParam η) (payload : List Byte) (c : Client η) :
    acknowledge param { c with unread := payload } =
      { acknowledge param c with unread := payload } := by
  unfold acknowledge
  split_ifs <;> rfl

/-- After a failed read, nothing is delivered. -/
theorem receivePublish_failed (h : readCode lib c payload < 0) :
    receivePublish lib param payload c =
      { acknowledge param c with unread := payload, reads := c.reads + 1 } := by
  obtain ⟨-, hreads, -⟩ := acknowledge_fields param c
  have hrc : lib.readPublishPayload c.reads cooMqttPayloadSize payload.length < 0 := h
  simp only [receivePublish, mqttEventHandler, onMqttPublish, mqttReadPublishPayload,
    acknowledge_unread, hreads, if_pos hrc, Int.toNat_of_nonpos (Int.le_of_lt hrc), List.drop_zero]

/-- What one successful read returns is delivered, and the rest stays unread. -/
theorem receivePublish_read (hcb : c.userMqttCb = true) (h : 0 ≤ readCode lib c payload) :
    receivePublish lib param payload c =
      Client.record { acknowledge param c with
        unread := payload.drop (readCode lib c payload).toNat, reads := c.reads + 1 }
        (.userMqttCb param (payload.take (readCode lib c payload).toNat)) := by
  obtain ⟨-, hreads, hack⟩ := acknowledge_fields param c
  have hrc : ¬ lib.readPublishPayload c.reads cooMqttPayloadSize payload.length < 0 :=
    Int.not_lt.mpr h
  simp only [receivePublish, mqttEventHandler, onMqttPublish, mqttReadPublishPayload,
    acknowledge_unread, hreads, if_neg hrc, hack.trans hcb, if_true]
  rfl

theorem receivePublish_callbacks (lib : MqttLib) (param : PublishParam η) (payload : List Byte)
    (hcb : c.userMqttCb = true) :
    (receivePublish lib param payload c).callbacks = c.callbacks ++
      if 0 ≤ readCode lib c payload then
        [(param, payload.take (readCode lib c payload).toNat)] else [] := by
  have hack := (acknowledge_spec param c).1
  split_ifs with h
  · rw [receivePublish_read hcb h, record_callbacks]
    exact congrArg (· ++ _) hack
  · rw [receivePublish_failed (Int.not_le.mp h), List.append_nil]
    exact hack

theorem receivePublish_unread (lib : MqttLib) (param : PublishParam η) (payload : List Byte)
    (hcb : c.userMqttCb = true) :
    (receivePublish lib param payload c).unread = payload.drop (readCode lib c payload).toNat := by
  by_cases h : 0 ≤ readCode lib c payload
  · rw [receivePublish_read hcb h]
    rfl
  · have hlt := Int.not_le.mp h
    rw [receivePublish_failed hlt, Int.toNat_of_nonpos (Int.le_of_lt hlt), List.drop_zero]

/-- The acknowledgements, and the flag that the handler never touches. -/
theorem receivePublish_acks (lib : MqttLib) (param : PublishParam η) (payload : List Byte)
    (hcb : c.userMqttCb = true) :
    (receivePublish lib param payload c).pubrecs =
        c.pubrecs ++ (if param.qos = 2 then [param.messageId] else []) ∧
      (receivePublish lib param payload c).pubcomps = c.pubcomps ∧
      (receivePublish lib param payload c).userMqttCb = true := by
  obtain ⟨-, hcomp, hrec⟩ := acknowledge_spec param c
  obtain ⟨-, -, hack⟩ := acknowledge_fields param c
  rw [← hcomp, ← hrec, ← hcb, ← hack]
  by_cases h : 0 ≤ readCode lib c payload
  · rw [receivePublish_read hcb h]
    simp [Client.record, Client.pubrecs, Client.pubcomps]
  · rw [receivePublish_failed (Int.not_le.mp h)]
    exact ⟨rfl, rfl, rfl⟩

/-- What handling a PUBLISH has to do: a payload that is short enough is delivered whole, once, and
no byte stays unread, for then `mqtt_input` would fail. -/
structure InStep (param : PublishParam η) (payload : List Byte) (c c' : Client η) : Prop where
  whole : payload.length < cooMqttPayloadSize → c'.callbacks = c.callbacks ++ [(param, payload)]
  drained : c'.unread = []

/-- **One PUBLISH.** The handler delivers the payload and leaves nothing unread exactly when its one
read returns the whole payload. -/
theorem inStep_iff (hcb : c.userMqttCb = true) :
    InStep param payload c (receivePublish lib param payload c) ↔
      readCode lib c payload = payload.length := by
  have hread := lib.read_ok c.reads cooMqttPayloadSize payload.length
  have hsize : cooMqttPayloadSize = 256 := rfl
  change ReadResult _ _ (readCode lib c payload) at hread
  unfold ReadResult at hread
  have hcalls := receivePublish_callbacks lib param payload hcb
  have hunread := receivePublish_unread lib param payload hcb
  constructor
  · intro hs
    have hdrop := hs.drained
    rw [hunread, List.drop_eq_nil_iff] at hdrop
    rcases hread with hneg | hzero | hpos
    · -- A failed read leaves an empty payload undelivered.
      have hempty : payload.length < cooMqttPayloadSize := by omega
      have hwhole := hs.whole hempty
      rw [hcalls, if_neg (by omega), List.append_nil] at hwhole
      simp at hwhole
    · omega
    · omega
  · intro hrc
    rw [hrc, Int.toNat_natCast] at hunread hcalls
    refine ⟨fun _ => ?_, ?_⟩
    · rw [hcalls, if_pos (by omega), List.take_length]
    · rw [hunread, List.drop_length]

/-- The return code of a read when at most `segment + 1` bytes have arrived. -/
def segmentCode (segment len remaining : Nat) : Int :=
  if remaining = 0 then 0
  else if len = 0 then -1
  else (min (segment + 1) (min len remaining) : Nat)

theorem segmentCode_ok (segment len remaining : Nat) :
    ReadResult len remaining (segmentCode segment len remaining) := by
  unfold ReadResult segmentCode
  split_ifs <;> omega

/-- A network on which payloads arrive in segments of `segment + 1` bytes. -/
def segmentReads (segment : Nat) : MqttLib :=
  ⟨fun _ => segmentCode segment, fun _ => segmentCode_ok segment⟩

/-- Two bytes that arrive one by one: the second stays unread. -/
theorem segment_left_unread :
    ¬ InStep ⟨0, 0, ()⟩ (str "ab") (.boot Unit)
      (receivePublish (segmentReads 0) ⟨0, 0, ()⟩ (str "ab") (.boot Unit)) := by
  rw [inStep_iff rfl]
  decide

/-- Two bytes that arrive at once. -/
theorem segment_read :
    InStep ⟨0, 0, ()⟩ (str "ab") (.boot Unit)
      (receivePublish (segmentReads 1) ⟨0, 0, ()⟩ (str "ab") (.boot Unit)) :=
  (inStep_iff rfl).mpr (by decide)

end Publish

/-! ## QoS 2 sessions -/

section Sessions

/-- The broker's side of a packet id: not in use, in use for message `n` whose PUBREC has not
arrived, or released and waiting for the PUBCOMP. -/
inductive Flight where
  | free
  | sent (n : Nat) (payload : List Byte)
  | released

/-- The broker and the client. Messages are numbered; the number stands for the topic and the
properties, at which the client does not look, and other publishes have none. -/
structure Session where
  client : Client (Option Nat)
  flight : UInt16 → Flight
  /-- The number of messages published so far. -/
  next : Nat
  /-- For each PUBREC, the message on whose PUBLISH the handler sent it. -/
  acked : List Nat
  /-- The packet ids of the PUBRELs so far. -/
  pubrels : List UInt16

def Session.boot : Session := ⟨.boot _, fun _ => .free, 0, [], []⟩

/-- Events outside the QoS 2 handshake. -/
def MqttEvt.Foreign : MqttEvt (Option Nat) → Prop
  | .publish param => param.qos ≠ 2 ∧ param.header = none
  | .pubrel _ _ => False
  | _ => True

variable (lib : MqttLib)

/-- The handler on a PUBLISH of message `n`. -/
def Session.transmit (s : Session) (messageId : UInt16) (n : Nat) (payload : List Byte) : Session :=
  let client := receivePublish lib ⟨2, messageId, some n⟩ payload s.client
  { s with
    client
    flight := Function.update s.flight messageId (.sent n payload)
    acked := s.acked ++ (client.pubrecs.drop s.client.pubrecs.length).map fun _ => n }

inductive SessionLabel where
  | publish (messageId : UInt16) (payload : List Byte)
  | resend (messageId : UInt16)
  | pubrel (messageId : UInt16)
  | pubcomp (messageId : UInt16)
  | foreign (evt : MqttEvt (Option Nat)) (payload : List Byte)

/-- What the protocol allows: a message on a free packet id, the same PUBLISH again until its
PUBREL, PUBRELs until the PUBCOMP arrives, which frees the packet id; and any other events. -/
inductive SessionStep : Session → SessionLabel → Session → Prop
  | publish {s : Session} {messageId : UInt16} (payload : List Byte) :
      s.flight messageId = .free → SessionStep s (.publish messageId payload)
        { s.transmit lib messageId s.next payload with next := s.next + 1 }
  | resend {s : Session} {messageId : UInt16} {n : Nat} {payload : List Byte} :
      s.flight messageId = .sent n payload → SessionStep s (.resend messageId)
        (s.transmit lib messageId n payload)
  | pubrel {s : Session} {messageId : UInt16} :
      s.flight messageId ≠ .free → SessionStep s (.pubrel messageId)
        { s with
          client := mqttEventHandler lib (.pubrel 0 messageId) s.client
          flight := Function.update s.flight messageId .released
          pubrels := s.pubrels ++ [messageId] }
  | pubcomp {s : Session} {messageId : UInt16} :
      s.flight messageId = .released → SessionStep s (.pubcomp messageId)
        { s with flight := Function.update s.flight messageId .free }
  | foreign {s : Session} (evt : MqttEvt (Option Nat)) (payload : List Byte) :
      evt.Foreign → SessionStep s (.foreign evt payload)
        { s with client := mqttEventHandler lib evt { s.client with unread := payload } }

def session : Sys := ⟨Session, SessionLabel, (· = .boot), SessionStep lib⟩

/-- How often the user callback got message `n`. -/
def Client.deliveries (c : Client (Option Nat)) (n : Nat) : Nat :=
  c.callbacks.countP fun d => d.1.header = some n

/-- Every message with a PUBREC was delivered exactly once, and every PUBREL has its PUBCOMP. -/
structure ExactlyOnce (s : Session) : Prop where
  once : ∀ n ∈ s.acked, s.client.deliveries n = 1
  completed : s.client.pubcomps = s.pubrels

/-- First transmissions are read, and retransmissions are not. -/
def ReadsOnce (s : Session) : SessionLabel → Prop
  | .publish _ payload => 0 ≤ readCode lib s.client payload
  | .resend messageId =>
    ∀ n payload, s.flight messageId = .sent n payload → readCode lib s.client payload < 0
  | .pubrel _ | .pubcomp _ | .foreign _ _ => True

/-! The steps of the client. -/

section Steps

variable {lib} {s t : Session} {n : Nat}

theorem transmit_deliveries (messageId : UInt16) (n : Nat) (payload : List Byte)
    (hcb : s.client.userMqttCb = true) (m : Nat) :
    (s.transmit lib messageId n payload).client.deliveries m = s.client.deliveries m +
      if n = m ∧ 0 ≤ readCode lib s.client payload then 1 else 0 := by
  simp only [Session.transmit, Client.deliveries, receivePublish_callbacks _ _ _ hcb,
    List.countP_append]
  congr 1
  by_cases hnm : n = m <;> by_cases hrc : 0 ≤ readCode lib s.client payload <;> simp [hnm, hrc]

/-- The handler sends one PUBREC, read or not. -/
theorem transmit_acks (lib : MqttLib) (messageId : UInt16) (n : Nat) (payload : List Byte)
    (hcb : s.client.userMqttCb = true) :
    (s.transmit lib messageId n payload).acked = s.acked ++ [n] ∧
      (s.transmit lib messageId n payload).client.pubcomps = s.client.pubcomps ∧
      (s.transmit lib messageId n payload).client.userMqttCb = true := by
  obtain ⟨hrec, hcomp, hcb'⟩ := receivePublish_acks lib ⟨2, messageId, some n⟩ payload hcb
  refine ⟨?_, hcomp, hcb'⟩
  simp only [Session.transmit, hrec, if_true, List.drop_left, List.map_cons, List.map_nil]

/-- An event outside the handshake. -/
theorem foreign_client (lib : MqttLib) {evt : MqttEvt (Option Nat)} (h : evt.Foreign)
    {c : Client (Option Nat)} (hcb : c.userMqttCb = true) (payload : List Byte) :
    let c' := mqttEventHandler lib evt { c with unread := payload }
    (∀ m, c'.deliveries m = c.deliveries m) ∧ c'.pubcomps = c.pubcomps ∧ c'.userMqttCb = true := by
  intro c'
  cases evt with
  | publish param =>
    obtain ⟨-, hcomp, hcb'⟩ := receivePublish_acks lib param payload hcb
    refine ⟨fun m => ?_, hcomp, hcb'⟩
    have hcalls := receivePublish_callbacks lib param payload hcb
    change ((receivePublish lib param payload c).callbacks.countP _) = _
    rw [hcalls, List.countP_append, Client.deliveries]
    split_ifs <;> simp [h.2]
  | pubrel result messageId => exact h.elim
  | connack result =>
    simp only [c', mqttEventHandler]
    split_ifs <;> exact ⟨fun _ => rfl, rfl, hcb⟩
  | pubrec result messageId =>
    simp only [c', mqttEventHandler]
    split_ifs
    · exact ⟨fun _ => rfl, rfl, hcb⟩
    · refine ⟨fun m => ?_, ?_, hcb⟩ <;>
        simp [Client.record, Client.deliveries, Client.callbacks, Client.pubcomps]
  | disconnect _ => exact ⟨fun _ => rfl, rfl, hcb⟩
  | pingresp => exact ⟨fun _ => rfl, rfl, hcb⟩
  | puback _ _ => exact ⟨fun _ => rfl, rfl, hcb⟩
  | pubcomp _ _ => exact ⟨fun _ => rfl, rfl, hcb⟩
  | suback _ _ => exact ⟨fun _ => rfl, rfl, hcb⟩
  | other => exact ⟨fun _ => rfl, rfl, hcb⟩

theorem pubrel_client (lib : MqttLib) (messageId : UInt16) (c : Client (Option Nat)) :
    (∀ m, (mqttEventHandler lib (.pubrel 0 messageId) c).deliveries m = c.deliveries m) ∧
      (mqttEventHandler lib (.pubrel 0 messageId) c).pubcomps = c.pubcomps ++ [messageId] ∧
      (mqttEventHandler lib (.pubrel 0 messageId) c).userMqttCb = c.userMqttCb := by
  have hrun : mqttEventHandler lib (.pubrel 0 messageId) c =
      c.record (.qos2Complete messageId) := by
    simp [mqttEventHandler]
  rw [hrun]
  refine ⟨fun m => ?_, ?_, rfl⟩ <;>
    simp [Client.record, Client.deliveries, Client.callbacks, Client.pubcomps]

/-- The invariant: numbers are used once, and a message in flight has been acknowledged. -/
structure Numbered (s : Session) : Prop where
  callback : s.client.userMqttCb = true
  acked_lt : ∀ n ∈ s.acked, n < s.next
  fresh : ∀ n, s.next ≤ n → s.client.deliveries n = 0
  in_flight : ∀ messageId n payload, s.flight messageId = .sent n payload → n ∈ s.acked
  completed : s.client.pubcomps = s.pubrels

/-- A flight of the updated map is the new one or an old one. -/
theorem sent_of_update {f : UInt16 → Flight} {messageId other : UInt16} {fl : Flight} {n : Nat}
    {payload : List Byte} (h : Function.update f messageId fl other = .sent n payload) :
    fl = .sent n payload ∨ f other = .sent n payload := by
  by_cases heq : other = messageId
  · subst heq
    rw [Function.update_self] at h
    exact Or.inl h
  · rw [Function.update_of_ne heq] at h
    exact Or.inr h

theorem Numbered.transmit (lib : MqttLib) (h : Numbered s) (hn : n ≤ s.next) (messageId : UInt16)
    (payload : List Byte) : Numbered { s.transmit lib messageId n payload with
      next := max s.next (n + 1) } := by
  obtain ⟨hack, hcomp, hcb⟩ := transmit_acks lib messageId n payload h.callback
  refine ⟨hcb, fun m hm => ?_, fun m hm => ?_, fun id m p hflight => ?_, hcomp.trans h.completed⟩
  · simp only [hack, List.mem_append, List.mem_singleton] at hm
    rcases hm with hm | rfl
    · exact Nat.lt_of_lt_of_le (h.acked_lt m hm) (Nat.le_max_left _ _)
    · exact Nat.le_max_right _ _
  · have hm' : max s.next (n + 1) ≤ m := hm
    change (s.transmit lib messageId n payload).client.deliveries m = 0
    rw [transmit_deliveries _ _ _ h.callback, h.fresh m (by omega), if_neg (by omega)]
  · simp only [hack, List.mem_append, List.mem_singleton]
    rcases sent_of_update hflight with heq | hold
    · cases heq
      exact Or.inr rfl
    · exact Or.inl (h.in_flight id m p hold)

/-- **Steps.** -/
theorem Numbered.step (h : Numbered s) {l : SessionLabel} (hst : SessionStep lib s l t) :
    Numbered t := by
  cases hst with
  | publish payload hfree =>
    rename_i messageId
    have ht := h.transmit lib le_rfl messageId payload
    rwa [Nat.max_eq_right (Nat.le_succ _)] at ht
  | resend hsent =>
    rename_i messageId n payload
    have hlt := h.acked_lt n (h.in_flight messageId n payload hsent)
    have ht := h.transmit lib hlt.le messageId payload
    rwa [Nat.max_eq_left hlt] at ht
  | pubrel hbusy =>
    rename_i messageId
    obtain ⟨hdel, hcomp, hcb⟩ := pubrel_client lib messageId s.client
    refine ⟨hcb.trans h.callback, h.acked_lt, fun n hn => (hdel n).trans (h.fresh n hn),
      fun id n p hflight => ?_, hcomp.trans (by rw [h.completed])⟩
    rcases sent_of_update hflight with heq | hold
    · cases heq
    · exact h.in_flight id n p hold
  | pubcomp hrel =>
    refine ⟨h.callback, h.acked_lt, h.fresh, fun id n p hflight => ?_, h.completed⟩
    rcases sent_of_update hflight with heq | hold
    · cases heq
    · exact h.in_flight id n p hold
  | foreign evt payload hevt =>
    obtain ⟨hdel, hcomp, hcb⟩ := foreign_client lib hevt h.callback payload
    exact ⟨hcb, h.acked_lt, fun n hn => (hdel n).trans (h.fresh n hn), h.in_flight,
      hcomp.trans h.completed⟩

theorem numbered_of_reachable (h : (session lib).Reachable s) : Numbered s := by
  refine h.of_steps ?_ fun s l t hs hst => hs.step hst
  rintro s rfl
  exact ⟨rfl, nofun, fun _ _ => rfl, nofun, rfl⟩

/-! **Which steps keep the deliveries at one.** -/

/-- A transmission adds a delivery of its message exactly when it is read. -/
theorem transmit_once_iff (h : Numbered s) (hs : ExactlyOnce s) (messageId : UInt16)
    (payload : List Byte) {k : Nat} (hold : n ∈ s.acked ∧ k = 1 ∨ n = s.next ∧ k = 0) :
    (∀ m ∈ (s.transmit lib messageId n payload).acked,
      (s.transmit lib messageId n payload).client.deliveries m = 1) ↔
      (k + if 0 ≤ readCode lib s.client payload then 1 else 0) = 1 := by
  obtain ⟨hack, -, -⟩ := transmit_acks lib messageId n payload h.callback
  have hk : s.client.deliveries n = k := by
    rcases hold with ⟨hn, rfl⟩ | ⟨rfl, rfl⟩
    · exact hs.once n hn
    · exact h.fresh _ le_rfl
  simp only [hack, List.mem_append, List.mem_singleton, transmit_deliveries _ _ _ h.callback]
  constructor
  · intro hall
    have hn := hall n (Or.inr rfl)
    simpa only [hk, true_and] using hn
  · rintro hone m hm
    by_cases hmn : n = m
    · subst hmn
      simpa only [hk, true_and] using hone
    · rw [if_neg fun hc => hmn hc.1]
      exact hs.once m (hm.resolve_right fun he => hmn he.symm)

theorem exactlyOnce_step_iff (h : Numbered s) (hs : ExactlyOnce s) {l : SessionLabel}
    (hst : SessionStep lib s l t) : ExactlyOnce t ↔ ReadsOnce lib s l := by
  have hcomp := (h.step hst).completed
  have hiff : ExactlyOnce t ↔ ∀ n ∈ t.acked, t.client.deliveries n = 1 :=
    ⟨fun ht => ht.once, fun ht => ⟨ht, hcomp⟩⟩
  rw [hiff]
  cases hst with
  | publish payload hfree =>
    refine (transmit_once_iff h hs _ payload (Or.inr ⟨rfl, rfl⟩)).trans ?_
    simp [ReadsOnce]
  | resend hsent =>
    rename_i messageId n payload
    refine (transmit_once_iff h hs messageId payload
      (Or.inl ⟨h.in_flight _ _ _ hsent, rfl⟩)).trans ?_
    simp [ReadsOnce, hsent]
  | pubrel hbusy =>
    refine iff_of_true (fun n hn => ?_) trivial
    exact ((pubrel_client lib _ s.client).1 n).trans (hs.once n hn)
  | pubcomp hrel => exact iff_of_true hs.once trivial
  | foreign evt payload hevt =>
    refine iff_of_true (fun n hn => ?_) trivial
    exact ((foreign_client lib hevt h.callback payload).1 n).trans (hs.once n hn)

/-- **QoS 2.** In a run of the session, every state has each acknowledged message delivered exactly
once and each PUBREL answered, exactly when every step reads once. -/
theorem exactlyOnce_iff {ls : List SessionLabel} :
    (session lib).ExecWith (fun _ _ t => ExactlyOnce t) .boot ls t ↔
      (session lib).ExecWith (fun s l _ => ReadsOnce lib s l) .boot ls t := by
  refine Sys.execWith_iff (S := session lib) (fun s l t hr hs hst => ?_) rfl ⟨nofun, rfl⟩
  exact exactlyOnce_step_iff (numbered_of_reachable hr) hs hst

/-- A retransmission is delivered again: message `0` is published and sent once more. -/
theorem resend_delivered_again :
    ∃ s, (session (segmentReads 255)).Reachable s ∧ 0 ∈ s.acked ∧ s.client.deliveries 0 = 2 ∧
      ¬ ExactlyOnce s := by
  let s₁ : Session := { Session.boot.transmit (segmentReads 255) 1 0 (str "ab") with next := 1 }
  have h₁ : (session (segmentReads 255)).Reachable s₁ :=
    (Sys.Reachable.start rfl).next (SessionStep.publish (str "ab") rfl)
  have hsent : s₁.flight 1 = .sent 0 (str "ab") := by simp [s₁, Session.transmit]
  have h₂ : (session (segmentReads 255)).Reachable
      (s₁.transmit (segmentReads 255) 1 0 (str "ab")) :=
    h₁.next (SessionStep.resend hsent)
  have hacked : 0 ∈ (s₁.transmit (segmentReads 255) 1 0 (str "ab")).acked := by decide
  have htwice : (s₁.transmit (segmentReads 255) 1 0 (str "ab")).client.deliveries 0 = 2 := by
    decide
  refine ⟨_, h₂, hacked, htwice, fun hs => ?_⟩
  rw [hs.once 0 hacked] at htwice
  cases htwice

end Steps

end Sessions

end Tib
