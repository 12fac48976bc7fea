import HispecTib.App.Main

/-!
# What the MQTT handler takes from a publish

* **Message types** (`msgType_detected_iff`): the descriptor of `msg_type` makes the parser store a
  pointer into the `char[8]`, so the comparison reads the bytes of an address.
* **Decoding** (`mqttCommandDecode_cases`): the four ways through the handler up to the put, with
  everything that later results need about the command (`Decoded`).
* **The key** (`key_from_topic_iff`): the handler measures the topic by a NUL, so bytes behind the
  topic can decide. **The body** (`enqueued_body_iff`): the payload length is never stored.
-/

open CLib

namespace Tib

/-! ## Message types -/

section MsgType

variable {α : Type} {get set : α}

/-- A pointer in memory: four bytes, the low one first. -/
def pointerBytes (a : Nat) : List Byte := (List.range 4).map fun i => UInt8.ofNat (a / 256 ^ i)

/-- The message type that a text names, ignoring case. -/
def namedType (get set : α) (s : List Byte) : Option α :=
  if EqNoCase s (str "get") then some get
  else if EqNoCase s (str "set") then some set
  else none

/-- `json_obj_parse` on the text of an object, for the descriptor of `msg_type`. `member` is the
string that the object has under `msg_type`, if any, with its offset in the text. The parser stores
the address of the string, or nothing. -/
structure DecodesMsgType (parse : JsonObjParse) (addr : Nat) (payload : List Byte)
    (member : Option (Nat × List Byte)) : Prop where
  member_at : ∀ m ∈ member, m.2 ++ str "\"" <+: (cstr payload).drop m.1
  accepted : 0 ≤ (parse addr (cstr payload) msgTypeDescr).rc
  field_eq : (parse addr (cstr payload) msgTypeDescr).field 0 =
    member.map fun m => .chars (pointerBytes (addr + m.1))

/-- The bytes of the pointer to the string `m` spell the same message type as the string, or
neither spells one. -/
def PointerSpells (addr : Nat) (m : Nat × List Byte) : Prop :=
  ∀ w ∈ [str "get", str "set"], EqNoCase (cstr (pointerBytes (addr + m.1))) w ↔ EqNoCase m.2 w

/-- A bound of four compares the whole field with a word of three letters. -/
theorem msgTypeOf_eq (field : List Byte) :
    msgTypeOf get set field = namedType get set (cstr field) := by
  have hg : cstr (str "get") = str "get" := by decide
  have hs : cstr (str "set") = str "set" := by decide
  have h (w : List Byte) (hw : (cstr w).length < 4) := strncasecmp_eq_zero (a := field) hw
  simp only [msgTypeOf, namedType, h _ (by decide : (cstr (str "get")).length < 4),
    h _ (by decide : (cstr (str "set")).length < 4), hg, hs]

theorem not_get_and_set {s : List Byte} (hg : EqNoCase s (str "get")) :
    ¬ EqNoCase s (str "set") := by
  intro hs
  exact absurd (hg.symm.trans hs) (by decide)

theorem namedType_eq_iff (hne : get ≠ set) (a b : List Byte) :
    namedType get set a = namedType get set b ↔
      ∀ w ∈ [str "get", str "set"], EqNoCase a w ↔ EqNoCase b w := by
  have ha := @not_get_and_set a
  have hb := @not_get_and_set b
  simp only [List.mem_cons, List.not_mem_nil, or_false, forall_eq_or_imp, forall_eq]
  unfold namedType
  by_cases hag : EqNoCase a (str "get") <;> by_cases has : EqNoCase a (str "set") <;>
    by_cases hbg : EqNoCase b (str "get") <;> by_cases hbs : EqNoCase b (str "set") <;>
    simp_all [eq_comm]

/-- The stored pointer is followed by NULs, so the comparison reads its bytes and no others. -/
theorem parseMsgType_eq {parse : JsonObjParse} {addr : Nat} {payload : List Byte}
    {member : Option (Nat × List Byte)} (h : DecodesMsgType parse addr payload member) :
    (parseMsgType get set parse addr payload).1 =
      member.bind fun m => namedType get set (cstr (pointerBytes (addr + m.1))) := by
  have hrc : ¬ (parse addr (cstr payload) msgTypeDescr).rc < 0 := not_lt.mpr h.accepted
  simp only [parseMsgType, if_neg hrc, msgTypeOf_eq, JsonResult.charsField, h.field_eq]
  cases member with
  | none => rfl
  | some m =>
    have hlen : (pointerBytes (addr + m.1)).length = 4 := by simp [pointerBytes]
    simp only [Option.map_some, Option.bind_some]
    rw [Buf.write_data_of_le _ (by omega), List.take_zero, List.nil_append,
      cstr_append_nul _ (Buf.zero_drop_cstr 8 _)]

/-- **Detection of the message type.** The two parsers return what the member says exactly when
the bytes of the string's address, taken as a text, say the same. -/
theorem msgType_detected_iff {parse : JsonObjParse} {addr : Nat} {payload : List Byte}
    {member : Option (Nat × List Byte)} (h : DecodesMsgType parse addr payload member) :
    ((parseMsgTypeFromPayload parse addr payload).1 =
        member.bind (fun m => namedType .get .set m.2) ∧
      (cooJsonParseMsgType parse addr payload).1 =
        member.bind (fun m => namedType .get .set m.2)) ↔
      ∀ m ∈ member, PointerSpells addr m := by
  unfold parseMsgTypeFromPayload cooJsonParseMsgType
  rw [parseMsgType_eq h, parseMsgType_eq h]
  cases member with
  | none => simp
  | some m =>
    simp only [Option.bind_some, Option.mem_some_iff, forall_eq']
    rw [namedType_eq_iff (by decide), namedType_eq_iff (by decide)]
    exact and_self_iff

/-- What the parser does with a text whose only decoded member is the string of `len` characters
at `off`: it stores the address and ends the string in place. -/
def storeString (off len : Nat) : JsonObjParse := refuseEmpty fun addr text _ =>
  ⟨1, text.set (off + len) 0, [some (.chars (pointerBytes (addr + off)))]⟩

def getPayload : List Byte := str "\x7b\"msg_type\":\"get\"\x7d"

theorem getPayload_decodes (addr : Nat) :
    DecodesMsgType (storeString 13 3) addr getPayload (some (13, str "get")) where
  member_at := by
    intro m hm
    obtain rfl := Option.mem_some_iff.mp hm
    decide
  accepted := (by decide : (0 : Int) ≤ 1)
  field_eq := rfl

/-- At an address in the RAM of the board, a get request is not recognised. -/
theorem get_not_detected :
    DecodesMsgType (storeString 13 3) 0x20000000 getPayload (some (13, str "get")) ∧
      (parseMsgTypeFromPayload (storeString 13 3) 0x20000000 getPayload).1 ≠
        namedType .get .set (str "get") :=
  ⟨getPayload_decodes _, by decide⟩

/-- The same request in a buffer for which the address of the string spells `get`. -/
theorem get_detected :
    (parseMsgTypeFromPayload (storeString 13 3) 0x74655a getPayload).1 =
        namedType .get .set (str "get") ∧
      (cooJsonParseMsgType (storeString 13 3) 0x74655a getPayload).1 =
        namedType .get .set (str "get") := by
  refine (msgType_detected_iff (getPayload_decodes 0x74655a)).mpr fun m hm => ?_
  obtain rfl := Option.mem_some_iff.mp hm
  unfold PointerSpells
  decide

end MsgType

/-! ## Decoding -/

section Decoding

variable (env : Env)

/-- What the handler takes for the topic: the string at the topic's address. -/
def Publish.scan (pub : Publish) : List Byte := cstr pub.utf8

/-- The topic that the handler sees carries the command prefix. -/
def Publish.HasPrefix (pub : Publish) : Prop := mqttCmdPrefix <+: pub.scan

/-- The key that the handler sees is neither empty nor too long. -/
def Publish.KeyFits (pub : Publish) : Prop :=
  strlen mqttCmdPrefix < pub.scan.length ∧ pub.scan.length < strlen mqttCmdPrefix + maxKeyLen

/-- The payload buffer of `cmd` before it is parsed. -/
def Publish.payloadBuf (pub : Publish) : Buf maxPayloadLen :=
  (Command.zero.payload.memcpy pub.payload pub.payload.length).write pub.payload.length [0]

/-- The early returns behind the key. They look at neither the topic nor what follows it. -/
def bodyRefusal (pub : Publish) : Option Rejection :=
  if pub.payload.length ≥ maxPayloadLen then some .payloadTooLong
  else if (parseMsgTypeFromPayload env.jsonObjParse env.pubPayload pub.payloadBuf.data).1 = none then
    some .noMsgType
  else if ∀ t ∈ pub.responseTopic, t.length ≥ maxTopicLen then some .noResponseTopic
  else none

/-- The key array that holds a text. -/
def keyBuf (key : List Byte) : Buf maxKeyLen :=
  ((Buf.zero _).memcpy key key.length).write key.length [0]

/-- What later results need about a decoded command. -/
structure Decoded (pub : Publish) (cmd : Command) : Prop where
  key_eq : cmd.key = keyBuf (pub.scan.drop (strlen mqttCmdPrefix))
  payloadLen_eq : cmd.payloadLen = 0
  topic_eq : ∃ t, pub.responseTopic = some t ∧ t.length < maxTopicLen ∧
    cmd.responseTopic = ((Buf.zero _).memcpy t t.length).write t.length [0]
  corrLen_eq : cmd.corrLen =
    if pub.correlationData.length < maxCorrelationData then pub.correlationData.length else 0
  corr_eq : cmd.correlationData = (Buf.zero _).memcpy pub.correlationData cmd.corrLen

/-! A publish whose topic has the prefix: the handler measures the rest of the string. -/

theorem hasPrefix_iff (pub : Publish) :
    strncmp pub.utf8 mqttCmdPrefix (strlen mqttCmdPrefix) = 0 ↔ pub.HasPrefix := by
  have hp : (cstr mqttCmdPrefix).take (strlen mqttCmdPrefix) = mqttCmdPrefix := by decide
  rw [strncmp_eq_zero, hp, Publish.HasPrefix, List.prefix_iff_eq_take, eq_comm]
  rfl

theorem suffix_eq {pub : Publish} (h : pub.HasPrefix) :
    cstr (pub.utf8.drop (strlen mqttCmdPrefix)) = pub.scan.drop (strlen mqttCmdPrefix) := by
  have h0 : (0 : Byte) ∉ mqttCmdPrefix := by decide
  have hl : strlen mqttCmdPrefix = mqttCmdPrefix.length := by decide
  obtain ⟨rest, hrest⟩ := h.trans (cstr_prefixOf _)
  rw [Publish.scan, ← hrest, cstr_append h0, hl, List.drop_left, List.drop_left]

theorem keyLen_eq {pub : Publish} (h : pub.HasPrefix) :
    strlen (pub.utf8.drop (strlen mqttCmdPrefix)) = pub.scan.length - strlen mqttCmdPrefix := by
  rw [strlen, suffix_eq h, List.length_drop]

theorem keyFits_iff {pub : Publish} (h : pub.HasPrefix) :
    ¬ (strlen (pub.utf8.drop (strlen mqttCmdPrefix)) = 0 ∨
      strlen (pub.utf8.drop (strlen mqttCmdPrefix)) ≥ maxKeyLen) ↔ pub.KeyFits := by
  rw [keyLen_eq h, Publish.KeyFits]
  omega

/-! The stages of the handler, in order. -/

section Stages

variable {env : Env} {pub : Publish}

theorem decode_notOurs (h : ¬ pub.HasPrefix) :
    mqttCommandDecode env pub = .error (.notOurs, .zero) := by
  rw [← hasPrefix_iff] at h
  simp only [mqttCommandDecode, if_pos h]

theorem decode_badKey (h : pub.HasPrefix) (hk : ¬ pub.KeyFits) :
    mqttCommandDecode env pub = .error (.badKey, .zero) := by
  rw [← keyFits_iff h, not_not] at hk
  simp only [mqttCommandDecode, (hasPrefix_iff pub).mpr h, ne_eq, not_true_eq_false, if_false,
    if_pos hk]

theorem decode_refused (h : pub.HasPrefix) (hk : pub.KeyFits) {why : Rejection}
    (hb : bodyRefusal env pub = some why) :
    ∃ cmd, mqttCommandDecode env pub = .error (why, cmd) := by
  have hk' := (keyFits_iff h).mpr hk
  simp only [mqttCommandDecode, (hasPrefix_iff pub).mpr h, ne_eq, not_true_eq_false, if_false,
    if_neg hk']
  unfold bodyRefusal at hb
  split at hb
  · rename_i hlen
    obtain rfl := Option.some.inj hb
    exact ⟨_, if_pos hlen⟩
  · rename_i hlen
    rw [if_neg hlen]
    split at hb
    · rename_i hparse
      obtain rfl := Option.some.inj hb
      simp only [Publish.payloadBuf] at hparse
      rw [hparse]
      exact ⟨_, rfl⟩
    · rename_i hparse
      obtain ⟨typ, htyp⟩ := Option.ne_none_iff_exists'.mp hparse
      simp only [Publish.payloadBuf] at htyp
      rw [htyp]
      split at hb
      · rename_i htopic
        obtain rfl := Option.some.inj hb
        cases ht : pub.responseTopic with
        | none => exact ⟨_, rfl⟩
        | some t => exact ⟨_, if_pos (htopic t ht)⟩
      · cases hb

theorem decode_ok (h : pub.HasPrefix) (hk : pub.KeyFits) (hb : bodyRefusal env pub = none) :
    ∃ cmd, mqttCommandDecode env pub = .ok cmd ∧ Decoded pub cmd := by
  have hk' := (keyFits_iff h).mpr hk
  simp only [mqttCommandDecode, (hasPrefix_iff pub).mpr h, ne_eq, not_true_eq_false, if_false,
    if_neg hk']
  simp only [bodyRefusal] at hb
  split_ifs at hb with hlen hparse htopic
  rw [if_neg hlen]
  obtain ⟨typ, htyp⟩ := Option.ne_none_iff_exists'.mp hparse
  simp only [Publish.payloadBuf] at htyp
  rw [htyp]
  push Not at htopic
  obtain ⟨t, ht, hsize⟩ := htopic
  rw [Option.mem_def.mp ht]
  simp only [if_neg (not_le.mpr hsize)]
  have hkey : (Command.zero.key.memcpy (pub.utf8.drop (strlen mqttCmdPrefix))
      (strlen (pub.utf8.drop (strlen mqttCmdPrefix)))).write
        (strlen (pub.utf8.drop (strlen mqttCmdPrefix))) [0] =
      keyBuf (pub.scan.drop (strlen mqttCmdPrefix)) := by
    rw [keyBuf, Buf.memcpy, Buf.memcpy, take_strlen, List.take_length, ← suffix_eq h]
    rfl
  rw [hkey]
  by_cases hcorr : 0 < pub.correlationData.length ∧
      pub.correlationData.length < maxCorrelationData
  · rw [if_pos hcorr]
    exact ⟨_, rfl, rfl, rfl, ⟨t, ht, hsize, rfl⟩, (if_pos hcorr.2).symm, rfl⟩
  · rw [if_neg hcorr]
    refine ⟨_, rfl, rfl, rfl, ⟨t, ht, hsize, rfl⟩, ?_, (Buf.memcpy_zero _ _).symm⟩
    change 0 = _
    split_ifs <;> omega

theorem submit_of_error {why : Rejection} {cmd : Command}
    (h : mqttCommandDecode env pub = .error (why, cmd)) (inbound : InboundQueue) :
    (mqttCommandSubmit env pub inbound).1 = .rejected why := by
  simp only [mqttCommandSubmit, h]

theorem submit_of_ok {cmd : Command} (h : mqttCommandDecode env pub = .ok cmd)
    (inbound : InboundQueue) :
    (mqttCommandSubmit env pub inbound).1 =
      if inbound.items.length = maxPendingCommands then .busy else .enqueued cmd := by
  simp only [mqttCommandSubmit, h]
  cases hput : inbound.put? cmd with
  | none => rw [if_pos (MsgQueue.put?_eq_none.mp hput)]
  | some q =>
    have hne : inbound.put? cmd ≠ none := by simp [hput]
    rw [ne_eq, MsgQueue.put?_eq_none] at hne
    rw [if_neg hne]

end Stages

/-! ## The key -/

/-- A publish with a usable topic: the prefix, and a key that fits. -/
def Publish.Usable (pub : Publish) : Prop := pub.HasPrefix ∧ pub.KeyFits

/-- The same rejection twice, or two commands with the same key, the topic behind the prefix. -/
def SameOutcome (topic : List Byte) : Exit → Exit → Prop
  | .rejected why, .rejected why' => why = why'
  | .busy, .busy => True
  | .enqueued cmd, .enqueued cmd' =>
    cmd.key = cmd'.key ∧ cmd.key.cstr = topic.drop (strlen mqttCmdPrefix)
  | _, _ => False

/-- The bytes behind the topic of two publishes with the same topic make no difference: both
strings at the topic's address are unusable for the same reason, or both are usable and the handler
refuses the publish on other grounds, or both are the topic itself. -/
inductive TopicDecides (env : Env) (pub pub' : Publish) (inbound : InboundQueue) : Prop
  | notOurs (h : ¬ pub.HasPrefix) (h' : ¬ pub'.HasPrefix)
  | badKey (h : pub.HasPrefix ∧ ¬ pub.KeyFits) (h' : pub'.HasPrefix ∧ ¬ pub'.KeyFits)
  | refused (h : pub.Usable) (h' : pub'.Usable)
      (hr : bodyRefusal env pub ≠ none ∨ inbound.items.length = maxPendingCommands)
  | terminated (h : pub.scan = pub.topic) (h' : pub'.scan = pub.topic)

theorem keyBuf_cstr {key : List Byte} (h0 : (0 : Byte) ∉ key) (hl : key.length < maxKeyLen) :
    (keyBuf key).cstr = key := by
  rw [keyBuf, Buf.cstr_memcpy_write _ le_rfl hl (by rwa [List.take_length]), List.take_length]

theorem Decoded.key_cstr {pub : Publish} {cmd : Command} (h : Decoded pub cmd)
    (hk : pub.KeyFits) : cmd.key.cstr = pub.scan.drop (strlen mqttCmdPrefix) := by
  unfold Publish.KeyFits at hk
  have h0 : (0 : Byte) ∉ pub.scan.drop (strlen mqttCmdPrefix) :=
    fun h0 => zero_notMem_cstr pub.utf8 (List.mem_of_mem_drop h0)
  rw [h.key_eq, keyBuf_cstr h0 (by rw [List.length_drop]; omega)]

/-- A usable key is the rest of the topic only if the string ends where the topic ends. -/
theorem scan_eq_topic {pub : Publish} (h : pub.Usable)
    (hdrop : pub.scan.drop (strlen mqttCmdPrefix) = pub.topic.drop (strlen mqttCmdPrefix)) :
    pub.scan = pub.topic := by
  obtain ⟨hpre, hk, -⟩ := h
  have hl : strlen mqttCmdPrefix = mqttCmdPrefix.length := by decide
  have hlen : strlen mqttCmdPrefix < pub.topic.length := by
    have := congrArg List.length hdrop
    rw [List.length_drop, List.length_drop] at this
    omega
  have htopic : mqttCmdPrefix <+: pub.topic :=
    List.prefix_of_prefix_length_le (hpre.trans (cstr_prefixOf _)) (List.prefix_append _ _)
      (by omega)
  obtain ⟨k, hscan⟩ := hpre
  obtain ⟨k', htop⟩ := htopic
  rw [← hscan, ← htop, hl, List.drop_left, List.drop_left] at hdrop
  rw [← hscan, ← htop, hdrop]

theorem bodyRefusal_beyond (env : Env) (pub : Publish) (beyond : List Byte) :
    bodyRefusal env { pub with beyond } = bodyRefusal env pub := rfl

/-- Two usable publishes that are not refused: both are put on the queue. -/
theorem sameOutcome_enqueued {env : Env} {pub : Publish} {beyond : List Byte}
    {inbound : InboundQueue} (h : pub.Usable) (h' : Publish.Usable { pub with beyond })
    (hb : bodyRefusal env pub = none) (hroom : inbound.items.length ≠ maxPendingCommands) :
    SameOutcome pub.topic (mqttCommandSubmit env pub inbound).1
        (mqttCommandSubmit env { pub with beyond } inbound).1 ↔
      pub.scan = pub.topic ∧ Publish.scan { pub with beyond } = pub.topic := by
  obtain ⟨cmd, hcmd, hd⟩ := decode_ok h.1 h.2 hb
  obtain ⟨cmd', hcmd', hd'⟩ := decode_ok h'.1 h'.2 ((bodyRefusal_beyond env pub beyond).trans hb)
  rw [submit_of_ok hcmd, submit_of_ok hcmd', if_neg hroom, if_neg hroom]
  have hkey := hd.key_cstr h.2
  have hkey' := hd'.key_cstr h'.2
  constructor
  · rintro ⟨hsame, htop⟩
    refine ⟨scan_eq_topic h (hkey ▸ htop), scan_eq_topic h' ?_⟩
    rw [← hkey', ← hsame, htop]
  · rintro ⟨hs, hs'⟩
    refine ⟨?_, ?_⟩
    · rw [hd.key_eq, hd'.key_eq, hs, hs']
    · rw [hkey, hs]

/-- Two usable publishes that are refused on other grounds take the same rejection. -/
theorem sameOutcome_refused {env : Env} {pub : Publish} {beyond : List Byte}
    {inbound : InboundQueue} (h : pub.Usable) (h' : Publish.Usable { pub with beyond })
    (hr : bodyRefusal env pub ≠ none ∨ inbound.items.length = maxPendingCommands) :
    SameOutcome pub.topic (mqttCommandSubmit env pub inbound).1
      (mqttCommandSubmit env { pub with beyond } inbound).1 := by
  have hb' := bodyRefusal_beyond env pub beyond
  cases hb : bodyRefusal env pub with
  | some why =>
    obtain ⟨cmd, hcmd⟩ := decode_refused h.1 h.2 hb
    obtain ⟨cmd', hcmd'⟩ := decode_refused h'.1 h'.2 (hb'.trans hb)
    rw [submit_of_error hcmd, submit_of_error hcmd']
    rfl
  | none =>
    have hfull := hr.resolve_left (not_not.mpr hb)
    obtain ⟨cmd, hcmd, -⟩ := decode_ok h.1 h.2 hb
    obtain ⟨cmd', hcmd', -⟩ := decode_ok h'.1 h'.2 (hb'.trans hb)
    rw [submit_of_ok hcmd, submit_of_ok hcmd', if_pos hfull, if_pos hfull]
    trivial

theorem sameOutcome_rejected_left {topic : List Byte} {why : Rejection} {e : Exit} :
    SameOutcome topic (.rejected why) e ↔ e = .rejected why := by
  cases e <;> simp [SameOutcome, eq_comm]

theorem sameOutcome_rejected_right {topic : List Byte} {why : Rejection} {e : Exit} :
    SameOutcome topic e (.rejected why) ↔ e = .rejected why := by
  cases e <;> simp [SameOutcome]

/-- No early return behind the key is one of the two before it. -/
theorem bodyRefusal_ne {env : Env} {pub : Publish} {why : Rejection}
    (h : bodyRefusal env pub = some why) : why ≠ .notOurs ∧ why ≠ .badKey := by
  unfold bodyRefusal at h
  split_ifs at h <;> obtain rfl := Option.some.inj h <;> decide

theorem submit_of_usable {env : Env} {pub : Publish} (h : pub.Usable) (inbound : InboundQueue) :
    (mqttCommandSubmit env pub inbound).1 ≠ .rejected .notOurs ∧
      (mqttCommandSubmit env pub inbound).1 ≠ .rejected .badKey := by
  cases hb : bodyRefusal env pub with
  | some why =>
    obtain ⟨cmd, hcmd⟩ := decode_refused h.1 h.2 hb
    rw [submit_of_error hcmd]
    simpa using bodyRefusal_ne hb
  | none =>
    obtain ⟨cmd, hcmd, -⟩ := decode_ok h.1 h.2 hb
    rw [submit_of_ok hcmd]
    split_ifs <;> simp

theorem submit_notOurs {env : Env} {pub : Publish} (h : ¬ pub.HasPrefix) (inbound : InboundQueue) :
    (mqttCommandSubmit env pub inbound).1 = .rejected .notOurs :=
  submit_of_error (decode_notOurs h) inbound

theorem submit_badKey {env : Env} {pub : Publish} (h : pub.HasPrefix ∧ ¬ pub.KeyFits)
    (inbound : InboundQueue) : (mqttCommandSubmit env pub inbound).1 = .rejected .badKey :=
  submit_of_error (decode_badKey h.1 h.2) inbound

theorem stages (pub : Publish) :
    ¬ pub.HasPrefix ∨ (pub.HasPrefix ∧ ¬ pub.KeyFits) ∨ pub.Usable := by
  unfold Publish.Usable
  tauto

/-- When both strings are the topic, the handler takes the same way twice. -/
theorem sameOutcome_terminated {env : Env} {pub : Publish} {beyond : List Byte}
    {inbound : InboundQueue} (h : pub.scan = pub.topic)
    (h' : Publish.scan { pub with beyond } = pub.topic) :
    SameOutcome pub.topic (mqttCommandSubmit env pub inbound).1
      (mqttCommandSubmit env { pub with beyond } inbound).1 := by
  have hscan : Publish.scan { pub with beyond } = pub.scan := h'.trans h.symm
  have hpre : Publish.HasPrefix { pub with beyond } ↔ pub.HasPrefix := by
    unfold Publish.HasPrefix
    rw [hscan]
  have hfit : Publish.KeyFits { pub with beyond } ↔ pub.KeyFits := by
    unfold Publish.KeyFits
    rw [hscan]
  rcases stages pub with hs | hs | hs
  · rw [submit_notOurs hs, submit_notOurs (mt hpre.mp hs), sameOutcome_rejected_left]
  · rw [submit_badKey hs, submit_badKey ⟨hpre.mpr hs.1, mt hfit.mp hs.2⟩,
      sameOutcome_rejected_left]
  · have hs' : Publish.Usable { pub with beyond } := ⟨hpre.mpr hs.1, hfit.mpr hs.2⟩
    by_cases hr : bodyRefusal env pub ≠ none ∨ inbound.items.length = maxPendingCommands
    · exact sameOutcome_refused hs hs' hr
    · rw [not_or, not_not] at hr
      exact (sameOutcome_enqueued hs hs' hr.1 hr.2).mpr ⟨h, h'⟩

/-- **The key and the topic.** Two publishes that differ in the bytes behind the topic take the
same rejection, or are enqueued with the rest of the topic as the key, exactly when those bytes
make no difference to the string at the topic's address. -/
theorem key_from_topic_iff (env : Env) (pub : Publish) (beyond : List Byte)
    (inbound : InboundQueue) :
    SameOutcome pub.topic (mqttCommandSubmit env pub inbound).1
        (mqttCommandSubmit env { pub with beyond } inbound).1 ↔
      TopicDecides env pub { pub with beyond } inbound := by
  constructor
  · intro hs
    rcases stages pub with h | h | h
    · rw [submit_notOurs h, sameOutcome_rejected_left] at hs
      rcases stages { pub with beyond } with h' | h' | h'
      · exact .notOurs h h'
      · rw [submit_badKey h'] at hs
        cases hs
      · exact absurd hs (submit_of_usable h' inbound).1
    · rw [submit_badKey h, sameOutcome_rejected_left] at hs
      rcases stages { pub with beyond } with h' | h' | h'
      · rw [submit_notOurs h'] at hs
        cases hs
      · exact .badKey h h'
      · exact absurd hs (submit_of_usable h' inbound).2
    · rcases stages { pub with beyond } with h' | h' | h'
      · rw [submit_notOurs h', sameOutcome_rejected_right] at hs
        exact absurd hs (submit_of_usable h inbound).1
      · rw [submit_badKey h', sameOutcome_rejected_right] at hs
        exact absurd hs (submit_of_usable h inbound).2
      · by_cases hr : bodyRefusal env pub ≠ none ∨ inbound.items.length = maxPendingCommands
        · exact .refused h h' hr
        · rw [not_or, not_not] at hr
          obtain ⟨ht, ht'⟩ := (sameOutcome_enqueued h h' hr.1 hr.2).mp hs
          exact .terminated ht ht'
  · intro hd
    cases hd with
    | notOurs h h' => rw [submit_notOurs h, submit_notOurs h', sameOutcome_rejected_left]
    | badKey h h' => rw [submit_badKey h, submit_badKey h', sameOutcome_rejected_left]
    | refused h h' hr => exact sameOutcome_refused h h' hr
    | terminated h h' => exact sameOutcome_terminated h h'

/-- A request whose message type is recognised: the string of `msg_type` lies at an address that
spells `set`. -/
def setPublish : Publish where
  topic := mqttCmdPrefix ++ str "power"
  beyond := [0, 1]
  payload := str "\x7b\"msg_type\":\"set\",\"value\":true\x7d"
  responseTopic := some (str "client/1")
  correlationData := [7]

def setEnv : Env where
  jsonObjParse := storeString 13 3
  answer := fun _ _ => 0
  cmdPayload := 0
  pubPayload := 0x746566
  nameBuf := .zero _
  settingBuf := .zero _
  raw := 0

theorem setPublish_usable : setPublish.Usable := by
  unfold Publish.Usable Publish.HasPrefix Publish.KeyFits
  decide

theorem setPublish_decodes (corr : List Byte) :
    ∃ cmd, mqttCommandDecode setEnv { setPublish with correlationData := corr } = .ok cmd ∧
      Decoded { setPublish with correlationData := corr } cmd := by
  have hb : bodyRefusal setEnv setPublish = none := by decide
  exact decode_ok setPublish_usable.1 setPublish_usable.2 hb

theorem setPublish_decoded : ∃ cmd, mqttCommandDecode setEnv setPublish = .ok cmd := by
  obtain ⟨cmd, hcmd, -⟩ := setPublish_decodes [7]
  exact ⟨cmd, hcmd⟩

/-- With packet id 1 the byte behind the topic is NUL, with packet id 256 it is not. -/
theorem packet_id_changes_key :
    ¬ SameOutcome setPublish.topic (mqttCommandSubmit setEnv setPublish .empty).1
      (mqttCommandSubmit setEnv { setPublish with beyond := [1, 0] } .empty).1 := by
  have h' : Publish.Usable { setPublish with beyond := [1, 0] } := by
    unfold Publish.Usable Publish.HasPrefix Publish.KeyFits
    decide
  rw [sameOutcome_enqueued setPublish_usable h' (by decide) (by decide)]
  decide

/-! ## The body -/

/-- The command holds the received payload and its length. -/
def CarriesBody (pub : Publish) (cmd : Command) : Prop :=
  cmd.payloadLen = pub.payload.length ∧ cmd.payload.data.take cmd.payloadLen = pub.payload

theorem decoded_of_ok {env : Env} {pub : Publish} {cmd : Command}
    (h : mqttCommandDecode env pub = .ok cmd) : Decoded pub cmd := by
  rcases stages pub with hs | hs | hs
  · rw [decode_notOurs hs] at h
    cases h
  · rw [decode_badKey hs.1 hs.2] at h
    cases h
  · cases hb : bodyRefusal env pub with
    | some why =>
      obtain ⟨cmd', hcmd⟩ := decode_refused hs.1 hs.2 hb
      rw [hcmd] at h
      cases h
    | none =>
      obtain ⟨cmd', hcmd, hd⟩ := decode_ok hs.1 hs.2 hb
      rw [hcmd] at h
      exact Except.ok.inj h ▸ hd

theorem decode_of_enqueued {env : Env} {pub : Publish} {inbound : InboundQueue} {cmd : Command}
    (h : (mqttCommandSubmit env pub inbound).1 = .enqueued cmd) :
    mqttCommandDecode env pub = .ok cmd := by
  cases hd : mqttCommandDecode env pub with
  | error e =>
    obtain ⟨why, _⟩ := e
    rw [submit_of_error hd] at h
    cases h
  | ok cmd' =>
    rw [submit_of_ok hd] at h
    split_ifs at h
    exact congrArg _ (Exit.enqueued.inj h)

/-- **The body of an enqueued command.** The handler never stores the payload length, so a command
on the queue carries the received payload only if that is empty. -/
theorem enqueued_body_iff {env : Env} {pub : Publish} {inbound : InboundQueue} {cmd : Command}
    (h : (mqttCommandSubmit env pub inbound).1 = .enqueued cmd) :
    CarriesBody pub cmd ↔ pub.payload = [] := by
  have hlen := (decoded_of_ok (decode_of_enqueued h)).payloadLen_eq
  unfold CarriesBody
  rw [hlen, List.take_zero]
  constructor
  · rintro ⟨-, hp⟩
    exact hp.symm
  · rintro hp
    simp [hp]

/-- The handlers read the payload of `cmd` as the empty text. -/
def ReadsEmpty (env : Env) (cmd : Command) : Prop :=
  ∀ d, parsePayload env cmd d = env.jsonObjParse env.cmdPayload [] d

/-- So a handler of an enqueued command parses the empty text. -/
theorem enqueued_readsEmpty {env : Env} {pub : Publish} {inbound : InboundQueue} {cmd : Command}
    (h : (mqttCommandSubmit env pub inbound).1 = .enqueued cmd) : ReadsEmpty env cmd := by
  intro d
  rw [parsePayload, (decoded_of_ok (decode_of_enqueued h)).payloadLen_eq, List.take_zero]

/-- The parser refuses the empty text, as `json_obj_parse` does. -/
def RefusesEmpty (env : Env) : Prop := ∀ d, (env.jsonObjParse env.cmdPayload [] d).rc < 0

/-- The request of `setPublish` is enqueued without its body. -/
theorem setPublish_loses_body :
    ∃ cmd, (mqttCommandSubmit setEnv setPublish .empty).1 = .enqueued cmd ∧
      ¬ CarriesBody setPublish cmd := by
  obtain ⟨cmd, hcmd, hd⟩ := setPublish_decodes [7]
  refine ⟨cmd, submit_of_ok hcmd _, fun h => ?_⟩
  have hlen := h.1
  rw [hd.payloadLen_eq] at hlen
  exact absurd hlen (by decide)

theorem setPublish_body_iff :
    ∃ cmd, (mqttCommandSubmit setEnv setPublish .empty).1 = .enqueued cmd ∧
      (CarriesBody setPublish cmd ↔ setPublish.payload = []) := by
  obtain ⟨cmd, hcmd, -⟩ := setPublish_decodes [7]
  have henq : (mqttCommandSubmit setEnv setPublish .empty).1 = .enqueued cmd := submit_of_ok hcmd _
  exact ⟨cmd, henq, enqueued_body_iff henq⟩

end Decoding

end Tib
