import HispecTib.Commons.JsonUtils

/-!
# Commands and replies (`command.h`, `command.c`)

The two messages, the reply builder with the fixed replies, and the parsing of message types, keys
and laser names. The character arrays are `Buf`s of the source's sizes. `session_id` is never read
and is left out.
-/

open CLib

namespace Tib

/-! ## Messages -/

/-- `MAX_TOPIC_LEN`. -/
abbrev maxTopicLen : Nat := 64
/-- `MAX_KEY_LEN`. -/
abbrev maxKeyLen : Nat := 48
/-- `MAX_PAYLOAD_LEN`, which is `CONFIG_COO_MQTT_PAYLOAD_SIZE`. -/
abbrev maxPayloadLen : Nat := 256
/-- `MAX_CORRELATION_DATA`. -/
abbrev maxCorrelationData : Nat := 16
/-- `MAX_PENDING_COMMANDS`. -/
abbrev maxPendingCommands : Nat := 2

inductive MsgType where
  | get
  | set
  | ack
  | respOk
  | respError
deriving DecidableEq

structure Command where
  msgType : MsgType
  key : Buf maxKeyLen
  responseTopic : Buf maxTopicLen
  payloadLen : Nat
  payload : Buf maxPayloadLen
  correlationData : Buf maxCorrelationData
  corrLen : Nat
deriving DecidableEq

/-- `struct Command cmd = { 0 }`. -/
def Command.zero : Command := ⟨.get, .zero _, .zero _, 0, .zero _, .zero _, 0⟩

/-- A set command with a payload and its length. -/
def Command.setOf (key payload : List Byte) : Command :=
  { Command.zero with
    msgType := .set
    key := (Buf.zero _).write 0 key
    payloadLen := payload.length
    payload := (Buf.zero _).write 0 payload }

structure OutMsg where
  msgType : MsgType
  topic : Buf maxTopicLen
  qos : Nat
  payloadLen : Nat
  payload : Buf maxPayloadLen
  correlationData : Buf maxCorrelationData
  corrLen : Nat
deriving DecidableEq

/-- `_msg_builder`. Every caller passes a command, so `cmd` is not null. -/
def msgBuilder (cmd : Command) (msgtyp : MsgType) (msg : List Byte) : OutMsg :=
  let topic := (Buf.zero maxTopicLen).strncpy (str "cmd/hsfib-tib/resp") (maxTopicLen - 1)
  let topicLen := strlen cmd.responseTopic.data
  let echo := 0 < cmd.corrLen ∧ cmd.corrLen < maxCorrelationData
  { msgType := msgtyp
    topic :=
      if 0 < topicLen ∧ topicLen < maxTopicLen then
        topic.strncpy cmd.responseTopic.data (maxTopicLen - 1)
      else topic
    qos := 1
    payloadLen := strlen msg
    payload := (Buf.zero maxPayloadLen).strncpy msg (maxPayloadLen - 1)
    correlationData :=
      if echo then (Buf.zero _).memcpy cmd.correlationData.data cmd.corrLen else .zero _
    corrLen := if echo then cmd.corrLen else 0 }

/-- The text `{"error":"<s>"}`. -/
def errorText (s : String) : List Byte := str "\x7b\"error\":\"" ++ str s ++ str "\"\x7d"

/-- The text `{"status":"OK"}`. -/
def okText : List Byte := str "\x7b\"status\":\"OK\"\x7d"

def errorReply (cmd : Command) (s : String) : OutMsg := msgBuilder cmd .respError (errorText s)

def invalidCommandResponse (cmd : Command) : OutMsg :=
  errorReply cmd "Invalid or unrecognized command"

def unknownResponse (cmd : Command) : OutMsg := errorReply cmd "Unknown request"

def unsupportedResponse (cmd : Command) : OutMsg := errorReply cmd "Unsupported operation"

def busyResponse (cmd : Command) : OutMsg := errorReply cmd "busy"

/-! ## Parsing -/

def parseKeyPair {n m : Nat} (key : List Byte) (outName : Buf n) (maxName : Nat)
    (outSetting : Buf m) (maxSetting : Nat) : KeyPair n m :=
  splitKeyPair key outName maxName outSetting maxSetting

def parseMsgTypeFromPayload (parse : JsonObjParse) (addr : Nat) (payload : List Byte) :
    Option MsgType × List Byte :=
  parseMsgType .get .set parse addr payload

/-- The numbers of `enum laser_t`. -/
abbrev LaserT := Nat

def laser1028Y : LaserT := 1
def laser1270J : LaserT := 1
def laser1430YJ : LaserT := 2
def laser1430HK : LaserT := 3
def laser1510H : LaserT := 4
def laser2330K : LaserT := 5
def laserUnknown : LaserT := 6

def getLaserChannel (laserName : List Byte) : LaserT :=
  if strncasecmp laserName (str "1028y") 7 = 0 then laser1028Y
  else if strncasecmp laserName (str "1270j") 7 = 0 then laser1270J
  else if strncasecmp laserName (str "1430yj") 7 = 0 then laser1430YJ
  else if strncasecmp laserName (str "1430yj") 7 = 0 then laser1430HK
  else if strncasecmp laserName (str "1510h") 7 = 0 then laser1510H
  else if strncasecmp laserName (str "2330k") 7 = 0 then laser2330K
  else laserUnknown

end Tib
