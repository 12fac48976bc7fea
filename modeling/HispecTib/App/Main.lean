import HispecTib.App.Handlers
import HispecTib.Base.MsgQueue

/-!
# The MQTT command handler (`main.c`)

* `Publish`: a received PUBLISH as the handler sees it. The topic is a pointer into the receive
  buffer and a size; `beyond` is what follows it in memory.
* `mqttCommandDecode`: everything up to the put on `inbound_queue`. It ends with a command or with
  one of the early returns (`Rejection`), some of which have a reply.
* `mqttCommandHandler`: the whole handler on the two queues; puts do not wait.
-/

open CLib

namespace Tib

/-- What the handler reads of `struct mqtt_publish_param`. -/
structure Publish where
  /-- The `size` bytes of the topic. -/
  topic : List Byte
  /-- The memory behind the topic. -/
  beyond : List Byte
  /-- The `len` bytes of the payload. -/
  payload : List Byte
  /-- The response topic, unless its pointer is null. -/
  responseTopic : Option (List Byte)
  correlationData : List Byte

/-- The memory from `topic.utf8` on. -/
def Publish.utf8 (pub : Publish) : List Byte := pub.topic ++ pub.beyond

/-- `MQTT_CMD_PREFIX`. -/
def mqttCmdPrefix : List Byte := str "cmd/hsfib-tib/req/"

/-- The early returns, in the order of the source. -/
inductive Rejection where
  | notOurs
  | badKey
  | payloadTooLong
  | noMsgType
  | noResponseTopic
deriving DecidableEq

/-- The early returns that put an `invalid_command_response` on `outbound_queue`. -/
def Rejection.replies : Rejection → Bool
  | .badKey | .noMsgType | .noResponseTopic => true
  | .notOurs | .payloadTooLong => false

variable (env : Env)

/-- The command, or the early return and `cmd` as it was at that point. -/
def mqttCommandDecode (pub : Publish) : Except (Rejection × Command) Command :=
  let cmd := Command.zero
  let prefixLen := strlen mqttCmdPrefix
  if strncmp pub.utf8 mqttCmdPrefix prefixLen ≠ 0 then .error (.notOurs, cmd) else
  let suffix := pub.utf8.drop prefixLen
  let suffixLen := strlen suffix
  if suffixLen = 0 ∨ suffixLen ≥ maxKeyLen then .error (.badKey, cmd) else
  let cmd := { cmd with key := (cmd.key.memcpy suffix suffixLen).write suffixLen [0] }
  let len := pub.payload.length
  if len ≥ maxPayloadLen then .error (.payloadTooLong, cmd) else
  let cmd := { cmd with payload := (cmd.payload.memcpy pub.payload len).write len [0] }
  let parsed := parseMsgTypeFromPayload env.jsonObjParse env.pubPayload cmd.payload.data
  let cmd := { cmd with payload := cmd.payload.write 0 parsed.2 }
  match parsed.1, pub.responseTopic with
  | none, _ => .error (.noMsgType, cmd)
  | some msgType, none => .error (.noResponseTopic, { cmd with msgType })
  | some msgType, some topic =>
    let cmd := { cmd with msgType }
    let size := topic.length
    if size ≥ maxTopicLen then .error (.noResponseTopic, cmd) else
    let cmd := { cmd with responseTopic := (cmd.responseTopic.memcpy topic size).write size [0] }
    let corr := pub.correlationData
    if 0 < corr.length ∧ corr.length < maxCorrelationData then
      .ok { cmd with
        correlationData := cmd.correlationData.memcpy corr corr.length
        corrLen := corr.length }
    else .ok cmd

abbrev InboundQueue := MsgQueue Command maxPendingCommands

abbrev OutboundQueue := MsgQueue OutMsg 8

/-- How the handler left. -/
inductive Exit where
  | rejected (why : Rejection)
  | busy
  | enqueued (cmd : Command)
deriving DecidableEq

/-- The exit, the put on `inbound_queue`, and the reply to put on `outbound_queue`, if any. -/
def mqttCommandSubmit (pub : Publish) (inbound : InboundQueue) :
    Exit × InboundQueue × Option OutMsg :=
  match mqttCommandDecode env pub with
  | .error (why, cmd) =>
    (.rejected why, inbound, if why.replies then some (invalidCommandResponse cmd) else none)
  | .ok cmd =>
    match inbound.put? cmd with
    | some inbound => (.enqueued cmd, inbound, none)
    | none => (.busy, inbound, some (busyResponse cmd))

/-- `mqtt_command_handler` on the two queues. -/
def mqttCommandHandler (pub : Publish) (inbound : InboundQueue) (outbound : OutboundQueue) :
    Exit × InboundQueue × OutboundQueue :=
  let (exit, inbound, reply) := mqttCommandSubmit env pub inbound
  (exit, inbound, (reply.map outbound.offer).getD outbound)

end Tib
