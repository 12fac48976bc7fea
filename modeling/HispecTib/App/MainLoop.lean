import HispecTib.App.Threads
import HispecTib.Commons.MqttClient

/-!
# The main loop (`main.c`)

The loop of the main thread, around the steps of the other threads.

* `OutMsg.publishParam`: the `param` that the loop passes to `mqtt_publish`.
* `MainPhase`: where the loop is. A library call is a phase, during which the event handler may
  change `mqtt_connected`. The calls that read input also run `mqtt_command_handler`.
* `MainStep`: the steps. The return codes of the library calls are labels: the library decides them.

`MainLoop.calls` records the calls of `mqtt_publish` that have returned; no step looks at it. The
watchdog has no part in what is published.
-/

open CLib

namespace Tib

/-! ## Publishing a message -/

/-- An outgoing `struct mqtt_publish_param`, besides its QoS and its packet id. -/
structure OutParam where
  topic : List Byte
  payload : List Byte
  correlationData : List Byte
  dupFlag : Bool
  retainFlag : Bool
deriving DecidableEq

/-- `param`, for the message `om`. -/
def OutMsg.publishParam (om : OutMsg) (messageId : UInt16) : PublishParam OutParam where
  qos := om.qos
  messageId
  header :=
    { topic := om.topic.data.take (strlen om.topic.data)
      payload := om.payload.data.take om.payloadLen
      correlationData := om.correlationData.data.take om.corrLen
      dupFlag := false
      retainFlag := false }

/-- A call of `mqtt_publish` that has returned. -/
structure PublishCall where
  param : PublishParam OutParam
  rc : Int
deriving DecidableEq

/-! ## The loop -/

inductive MainPhase where
  /-- In `coo_mqtt_connect`. -/
  | connecting
  /-- In `coo_mqtt_subscribe`. -/
  | subscribing
  /-- At `while (coo_mqtt_is_connected())`. -/
  | testing
  /-- At `while (k_msgq_get(&outbound_queue, &om, K_NO_WAIT) == 0)`. -/
  | draining
  /-- In `mqtt_publish`. -/
  | publishing (param : PublishParam OutParam)
  /-- In `coo_mqtt_process`. -/
  | processing
  /-- In `mqtt_disconnect`. -/
  | disconnecting

namespace MainPhase

/-- A call of the MQTT library is under way. -/
def inLibrary : MainPhase → Bool
  | .testing | .draining => false
  | .connecting | .subscribing | .publishing _ | .processing | .disconnecting => true

/-- The call under way uses `mqtt_input`. -/
def readsInput : MainPhase → Bool
  | .connecting | .processing => true
  | _ => false

/-- The steps of the firmware that do not wait for the main thread: those of the other threads, and
those of `mqtt_command_handler` while input is read. -/
def Allows (phase : MainPhase) : Label → Prop
  | .take => False
  | .receive _ | .reject => phase.readsInput
  | _ => True

/-- The `param` of the `mqtt_publish` under way. -/
def param : MainPhase → Option (PublishParam OutParam)
  | .publishing param => some param
  | _ => none

end MainPhase

structure MainLoop where
  fw : Firmware
  phase : MainPhase
  mqttConnected : Bool
  msgId : UInt16
  calls : List PublishCall

/-- The start of the loop. -/
def MainLoop.boot (w : World) : MainLoop := ⟨.boot w, .connecting, false, 1, []⟩

inductive MainLabel where
  | thread (l : Label)
  | connack
  | disconnected
  | connected
  | subscribed (rc : Int)
  | enter
  | take
  | publish (rc : Int)
  | empty
  | process (rc : Int)
  | leave
  | disconnect (rc : Int)

variable (env : Env)

inductive MainStep : MainLoop → MainLabel → MainLoop → Prop
  | thread {b : MainLoop} {l : Label} {fw : Firmware} :
      b.phase.Allows l → Step env b.fw l fw → MainStep b (.thread l) { b with fw }
  | connack {b : MainLoop} :
      b.phase.readsInput → MainStep b .connack { b with mqttConnected := true }
  | disconnected {b : MainLoop} :
      b.phase.inLibrary → MainStep b .disconnected { b with mqttConnected := false }
  | connected {b : MainLoop} :
      b.phase = .connecting → b.fw.rejection = none → b.mqttConnected = true →
      MainStep b .connected { b with phase := .subscribing }
  | subscribed {b : MainLoop} (rc : Int) :
      -- The return code is ignored.
      b.phase = .subscribing → MainStep b (.subscribed rc) { b with phase := .testing }
  | enter {b : MainLoop} :
      b.phase = .testing → b.mqttConnected = true →
      MainStep b .enter { b with phase := .draining }
  | take {b : MainLoop} {m : Sender × OutMsg} {outbound : MsgQueue (Sender × OutMsg) 8} :
      b.phase = .draining → b.fw.outbound.get? = some (m, outbound) →
      MainStep b .take
        { b with
          fw := { b.fw with outbound, taken := b.fw.taken ++ [m] }
          phase := .publishing (m.2.publishParam b.msgId)
          msgId := b.msgId + 1 }
  | publish {b : MainLoop} {param : PublishParam OutParam} (rc : Int) :
      -- A failure is only logged: the loop goes on with the next message.
      b.phase = .publishing param → MainStep b (.publish rc)
        { b with phase := .draining, calls := b.calls ++ [⟨param, rc⟩] }
  | empty {b : MainLoop} :
      b.phase = .draining → b.fw.outbound.get? = none →
      MainStep b .empty { b with phase := .processing }
  | process {b : MainLoop} (rc : Int) :
      b.phase = .processing → b.fw.rejection = none → MainStep b (.process rc)
        { b with phase := if rc ≠ 0 then .disconnecting else .testing }
  | leave {b : MainLoop} :
      b.phase = .testing → b.mqttConnected = false →
      MainStep b .leave { b with phase := .disconnecting }
  | disconnect {b : MainLoop} (rc : Int) :
      -- `coo_mqtt_connect` starts by clearing the flag.
      b.phase = .disconnecting → MainStep b (.disconnect rc)
        { b with phase := .connecting, mqttConnected := false }

/-- The main loop, from the world that the setup has left. -/
def mainLoop (w : World) : Sys := ⟨MainLoop, MainLabel, (· = .boot w), MainStep env⟩

end Tib
