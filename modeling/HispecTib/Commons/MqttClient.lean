import HispecTib.Base.CString

/-!
# The MQTT client (`mqtt_client.c`)

* `MqttLib`: the part of the MQTT library that the handler depends on. The network decides how
  much of a payload one `mqtt_read_publish_payload` returns.
* `Client`: the wrapper's flags and the payload bytes that are still unread; `Client.log` lists
  the library calls and the user callbacks that the handler has made.
* `mqttEventHandler`: the handler. A PUBLISH is acknowledged first and read afterwards.
* `cooMqttProcess`: the return code of one `coo_mqtt_process`, from those of the calls that it makes.

The handler passes the topic and the properties of a publish on without a look; they are a
parameter.
-/

open CLib

namespace Tib

/-- `CONFIG_COO_MQTT_PAYLOAD_SIZE`. -/
abbrev cooMqttPayloadSize : Nat := 256

/-! ## The library -/

/-- What `mqtt_read_publish_payload` may return for `len` bytes of buffer when `remaining` bytes of
the payload are unread: an error, zero when nothing is left, or a number of bytes. -/
def ReadResult (len remaining : Nat) (rc : Int) : Prop :=
  rc < 0 ∨ rc = 0 ∧ remaining = 0 ∨ 0 < rc ∧ rc ≤ len ∧ rc ≤ remaining

/-- `mqtt_read_publish_payload` by the number of reads before it. -/
structure MqttLib where
  readPublishPayload : Nat → Nat → Nat → Int
  read_ok : ∀ k len remaining, ReadResult len remaining (readPublishPayload k len remaining)

/-- What the handler reads of `struct mqtt_publish_param`, and the rest of it. -/
structure PublishParam (η : Type) where
  qos : Nat
  messageId : UInt16
  header : η
deriving DecidableEq

/-- `struct mqtt_evt`, for the events that the handler tells apart. -/
inductive MqttEvt (η : Type) where
  | connack (result : Int)
  | disconnect (result : Int)
  | pingresp
  | puback (result : Int) (messageId : UInt16)
  | pubrec (result : Int) (messageId : UInt16)
  | pubrel (result : Int) (messageId : UInt16)
  | pubcomp (result : Int) (messageId : UInt16)
  | suback (result : Int) (messageId : UInt16)
  | publish (param : PublishParam η)
  | other

/-- What the handler calls. -/
inductive ClientCall (η : Type) where
  | qos1Ack (messageId : UInt16)
  | qos2Receive (messageId : UInt16)
  | qos2Release (messageId : UInt16)
  | qos2Complete (messageId : UInt16)
  | userMqttCb (param : PublishParam η) (payload : List Byte)
deriving DecidableEq

structure Client (η : Type) where
  mqttConnected : Bool
  nfds : Nat
  /-- `user_mqtt_cb` is not null. -/
  userMqttCb : Bool
  /-- The bytes of the current payload that are not read yet. -/
  unread : List Byte
  /-- The number of reads so far. -/
  reads : Nat
  log : List (ClientCall η)

namespace Client

variable {η : Type} (c : Client η)

/-- After `coo_mqtt_set_message_callback`, before the first connection. -/
def boot (η : Type) : Client η := ⟨false, 0, true, [], 0, []⟩

def record (call : ClientCall η) : Client η := { c with log := c.log ++ [call] }

/-- The user callbacks, with the publish and the payload that they got. -/
def callbacks : List (PublishParam η × List Byte) :=
  c.log.filterMap fun
    | .userMqttCb param payload => some (param, payload)
    | _ => none

/-- The packet ids of the PUBRECs. -/
def pubrecs : List UInt16 :=
  c.log.filterMap fun
    | .qos2Receive messageId => some messageId
    | _ => none

/-- The packet ids of the PUBCOMPs. -/
def pubcomps : List UInt16 :=
  c.log.filterMap fun
    | .qos2Complete messageId => some messageId
    | _ => none

end Client

/-! ## The handler -/

section Handler

variable {η : Type} (lib : MqttLib)

/-- The return code, what is in the buffer, and the client afterwards. -/
def mqttReadPublishPayload (len : Nat) (c : Client η) : Int × List Byte × Client η :=
  let rc := lib.readPublishPayload c.reads len c.unread.length
  (rc, c.unread.take rc.toNat,
    { c with unread := c.unread.drop rc.toNat, reads := c.reads + 1 })

def onMqttConnect (c : Client η) : Client η := { c with mqttConnected := true }

def onMqttDisconnect (c : Client η) : Client η := { c with mqttConnected := false, nfds := 0 }

def onMqttPublish (param : PublishParam η) (c : Client η) : Client η :=
  let (rc, payload, c) := mqttReadPublishPayload lib cooMqttPayloadSize c
  if rc < 0 then c
  else if c.userMqttCb then c.record (.userMqttCb param payload)
  else c

/-- The acknowledgement of a PUBLISH, by its QoS. -/
def acknowledge (param : PublishParam η) (c : Client η) : Client η :=
  if param.qos = 1 then c.record (.qos1Ack param.messageId)
  else if param.qos = 2 then c.record (.qos2Receive param.messageId)
  else c

/-- `mqtt_event_handler`; a case without a body only logs. -/
def mqttEventHandler (evt : MqttEvt η) (c : Client η) : Client η :=
  match evt with
  | .connack result => if result ≠ 0 then c else onMqttConnect c
  | .disconnect _ => onMqttDisconnect c
  | .pubrec result messageId => if result ≠ 0 then c else c.record (.qos2Release messageId)
  | .pubrel result messageId => if result ≠ 0 then c else c.record (.qos2Complete messageId)
  | .publish param => onMqttPublish lib param (acknowledge param c)
  | .pingresp | .puback _ _ | .pubcomp _ _ | .suback _ _ | .other => c

/-- The handler on the PUBLISH of a packet whose payload has just come in. -/
def receivePublish (param : PublishParam η) (payload : List Byte) (c : Client η) : Client η :=
  mqttEventHandler lib (.publish param) { c with unread := payload }

end Handler

/-! ## Processing -/

/-- The bits of `fds[0].revents`. -/
structure SocketEvents where
  pollin : Bool
  pollhup : Bool
  pollerr : Bool
  pollnval : Bool
deriving DecidableEq

/-- What the calls of one `coo_mqtt_process` return: `poll_mqtt_socket`, with the events that it
leaves in `fds[0]`, and `mqtt_input` or `mqtt_live` if it is called. -/
structure ProcessCalls where
  pollRc : Int
  revents : SocketEvents
  inputRc : Int
  liveRc : Int
deriving DecidableEq

/-- `-ENOTCONN`. -/
def negEnotconn : Int := -128

/-- `coo_mqtt_process`. -/
def cooMqttProcess (c : ProcessCalls) : Int :=
  if c.pollRc ≠ 0 then
    if c.revents.pollin then
      if c.inputRc ≠ 0 then c.inputRc
      else if c.revents.pollhup || c.revents.pollerr then negEnotconn
      else 0
    else 0
  else if c.liveRc ≠ 0 then c.liveRc
  else 0

end Tib
