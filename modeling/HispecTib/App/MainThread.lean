import HispecTib.App.MainLoop

/-!
# The main thread (`main.c`, `mqtt_client.c`, `network.c`)

`main` from `watchdog_init` on, with a clock in milliseconds. What `MainLoop` has as one phase is in
steps here: `coo_network_wait_ready`, `coo_mqtt_connect` and `coo_mqtt_process` with the calls that
they make.

* `MainPc`: where the thread is. The event handler runs in the calls of the MQTT library.
* `MainThreadStep`: the steps. What the libraries decide is in the labels: return codes, events, and
  for how long `k_msleep` and `zsock_poll` block. No other step takes time.

`MainThread.fed` is the time of the last `wdt_feed`, or of `wdt_setup`; no step looks at it.
-/

open CLib

namespace Tib

/-! ## Timeouts -/

/-- `WDT_FEED_INTERVAL_MS`. -/
abbrev wdtFeedIntervalMs : Nat := 1000

/-- `WDT_TIMEOUT_MS`. -/
abbrev wdtTimeoutMs : Nat := 5000

/-- `check_interval`. -/
abbrev checkInterval : Nat := 100

/-- `MSECS_WAIT_RECONNECT`. -/
abbrev msecsWaitReconnect : Nat := 5000

/-- `MSECS_NET_POLL_TIMEOUT`. -/
abbrev msecsNetPollTimeout : Nat := 30000

/-- `CONFIG_MQTT_KEEPALIVE` in milliseconds, which bounds `mqtt_keepalive_time_left`. -/
abbrev mqttKeepaliveMs : Nat := 60000

/-! ## Where the thread is -/

/-- The `revents` that the code looks at. -/
structure Revents where
  pollin : Bool
  pollhup : Bool
  pollerr : Bool
deriving DecidableEq

inductive MainPc where
  /-- In `watchdog_init`. -/
  | starting
  /-- In the setup, up to `net_if_get_default`. -/
  | settingUp
  /-- At `while (!network_online)`. -/
  | awaitingNetwork
  /-- In `coo_mqtt_init`. -/
  | initMqtt
  /-- After a `return`. -/
  | returned
  /-- At `while (!mqtt_connected)`. -/
  | connectTest
  /-- In `mqtt_connect`. -/
  | connecting
  /-- In `k_msleep(MSECS_WAIT_RECONNECT)`. -/
  | retrying
  /-- In the `zsock_poll` of `coo_mqtt_connect`. -/
  | awaitingConnack
  /-- In the `mqtt_input` of `coo_mqtt_connect`. -/
  | readingConnack
  /-- At `if (!mqtt_connected)`. -/
  | connackTest
  /-- In `mqtt_abort`. -/
  | aborting
  /-- In `coo_mqtt_subscribe`. -/
  | subscribing
  /-- At `while (coo_mqtt_is_connected())`. -/
  | testing
  /-- At `if (wdt && ...)`. -/
  | feeding
  /-- At `while (k_msgq_get(&outbound_queue, &om, K_NO_WAIT) == 0)`. -/
  | draining
  /-- In `mqtt_publish`. -/
  | publishing (param : PublishParam OutParam)
  /-- In the `zsock_poll` of `coo_mqtt_process`. -/
  | polling
  /-- In the `mqtt_input` of `coo_mqtt_process`. -/
  | reading (revents : Revents)
  /-- In `mqtt_live`. -/
  | keepingAlive
  /-- After `coo_mqtt_process`. -/
  | processed (rc : Int)
  /-- In `mqtt_disconnect`. -/
  | disconnecting

namespace MainPc

/-- The phase of the main loop; before the loop, the one it starts in. -/
def phase : MainPc → MainPhase
  | .starting | .settingUp | .awaitingNetwork | .initMqtt | .returned => .connecting
  | .connectTest | .connecting | .retrying | .awaitingConnack | .readingConnack | .connackTest
  | .aborting => .connecting
  | .subscribing => .subscribing
  | .testing => .testing
  | .feeding | .draining => .draining
  | .publishing param => .publishing param
  | .polling | .reading _ | .keepingAlive | .processed _ => .processing
  | .disconnecting => .disconnecting

/-- The executor and `photodiode_publish_work` are started. -/
def inLoop : MainPc → Bool
  | .starting | .settingUp | .awaitingNetwork | .initMqtt | .returned => false
  | _ => true

/-- In `mqtt_input`. -/
def readsInput : MainPc → Bool
  | .readingConnack | .reading _ => true
  | _ => false

/-- In a call of the MQTT library. -/
def inLibrary : MainPc → Bool
  | .connecting | .readingConnack | .aborting | .subscribing | .publishing _ | .reading _
  | .keepingAlive | .disconnecting => true
  | _ => false

/-- The steps of the firmware that do not wait for the main thread. -/
def Allows (pc : MainPc) : Label → Prop
  | .take => False
  | .receive _ | .reject => pc.readsInput
  | .measure _ _ _ | .store | .full | .purge => True
  | .fetch | .dispatch | .deliver | .collect | .forward => pc.inLoop

/-- The calls that give the event to the handler. A call that fails disconnects. -/
def Delivers (pc : MainPc) : MqttEvt Unit → Prop
  | .disconnect _ => pc.inLibrary
  | _ => pc.readsInput

end MainPc

/-! ## State -/

structure MainThread where
  fw : Firmware
  pc : MainPc
  mqttConnected : Bool
  msgId : UInt16
  calls : List PublishCall
  networkOnline : Bool
  /-- `k_uptime_get()`. -/
  clock : Nat
  /-- `wdt` is not null. -/
  wdt : Bool
  lastWdtFeed : Nat
  fed : Nat

namespace MainThread

/-- The call of `main`, at a time `t` after boot. -/
def boot (w : World) (t : Nat) : MainThread where
  fw := .boot w
  pc := .starting
  mqttConnected := false
  msgId := 1
  calls := []
  networkOnline := false
  clock := t
  wdt := false
  lastWdtFeed := 0
  fed := 0

variable (b : MainThread)

/-- What the main loop sees. -/
def loop : MainLoop := ⟨b.fw, b.pc.phase, b.mqttConnected, b.msgId, b.calls⟩

/-- `wdt && (k_uptime_get() - last_wdt_feed) >= WDT_FEED_INTERVAL_MS`. -/
def feedDue : Bool := b.wdt && b.clock - b.lastWdtFeed ≥ wdtFeedIntervalMs

end MainThread

/-! ## Steps -/

/-- What an event does to `mqtt_connected`. -/
def MqttEvt.connectedAfter {η : Type} (evt : MqttEvt η) (connected : Bool) : Bool :=
  match evt with
  | .connack result => if result ≠ 0 then connected else true
  | .disconnect _ => false
  | _ => connected

/-- Where `coo_mqtt_process` goes on after its poll. -/
def pollNext (rc : Int) (revents : Revents) : MainPc :=
  if rc ≠ 0 then
    -- Without POLLIN, neither `rc` nor the other bits are looked at.
    if revents.pollin then .reading revents else .processed 0
  else .keepingAlive

/-- What `coo_mqtt_process` returns after its `mqtt_input`: `rc`, or `-ENOTCONN`. -/
def inputReturn (rc : Int) (revents : Revents) : Int :=
  if rc ≠ 0 then rc else if revents.pollhup || revents.pollerr then -128 else 0

inductive MainThreadLabel where
  | thread (l : Label)
  | networkEvent (online : Bool)
  | event (evt : MqttEvt Unit)
  | watchdogInit (ok : Bool)
  | setup (iface : Bool)
  | networkSleep (d : Nat)
  | networkReady
  | mqttInit (rc : Int)
  | attempt
  | connect (rc : Int)
  | retrySleep (d : Nat)
  | connackPoll (d : Nat) (rc : Int)
  | connackInput (rc : Int)
  | keep
  | abort
  | aborted
  | connected
  | subscribed (rc : Int)
  | enter
  | watchdog
  | take
  | publish (rc : Int)
  | process
  | poll (d : Nat) (rc : Int) (revents : Revents)
  | input (rc : Int)
  | live (rc : Int)
  | processed (rc : Int)
  | leave
  | disconnect (rc : Int)

variable (env : Env)

inductive MainThreadStep : MainThread → MainThreadLabel → MainThread → Prop
  | thread {b : MainThread} {l : Label} {fw : Firmware} :
      b.pc.Allows l → Step env b.fw l fw → MainThreadStep b (.thread l) { b with fw }
  | networkEvent {b : MainThread} (online : Bool) :
      -- The callback is registered after the setup.
      b.pc ≠ .starting → b.pc ≠ .settingUp →
      MainThreadStep b (.networkEvent online) { b with networkOnline := online }
  | event {b : MainThread} (evt : MqttEvt Unit) :
      -- What `mqtt_command_handler` does with a PUBLISH is a step of `thread`.
      b.pc.Delivers evt → MainThreadStep b (.event evt)
        { b with mqttConnected := evt.connectedAfter b.mqttConnected }
  | watchdogInit {b : MainThread} (ok : Bool) :
      b.pc = .starting → MainThreadStep b (.watchdogInit ok)
        { b with pc := .settingUp, wdt := ok, fed := b.clock }
  | setup {b : MainThread} (iface : Bool) :
      b.pc = .settingUp → MainThreadStep b (.setup iface)
        { b with pc := if iface then .awaitingNetwork else .returned }
  | networkSleep {b : MainThread} (d : Nat) :
      b.pc = .awaitingNetwork → b.networkOnline = false → d ≤ checkInterval →
      MainThreadStep b (.networkSleep d) { b with clock := b.clock + d }
  | networkReady {b : MainThread} :
      b.pc = .awaitingNetwork → b.networkOnline = true →
      MainThreadStep b .networkReady { b with pc := .initMqtt }
  | initFailed {b : MainThread} (rc : Int) :
      b.pc = .initMqtt → rc ≠ 0 → MainThreadStep b (.mqttInit rc) { b with pc := .returned }
  | initialized {b : MainThread} :
      -- `coo_mqtt_connect` starts by clearing the flag.
      b.pc = .initMqtt → MainThreadStep b (.mqttInit 0)
        { b with pc := .connectTest, mqttConnected := false }
  | attempt {b : MainThread} :
      b.pc = .connectTest → b.mqttConnected = false →
      MainThreadStep b .attempt { b with pc := .connecting }
  | connect {b : MainThread} (rc : Int) :
      b.pc = .connecting → MainThreadStep b (.connect rc)
        { b with pc := if rc ≠ 0 then .retrying else .awaitingConnack }
  | retrySleep {b : MainThread} (d : Nat) :
      b.pc = .retrying → d ≤ msecsWaitReconnect →
      MainThreadStep b (.retrySleep d) { b with pc := .connectTest, clock := b.clock + d }
  | connackPoll {b : MainThread} (d : Nat) (rc : Int) :
      b.pc = .awaitingConnack → d ≤ msecsNetPollTimeout → MainThreadStep b (.connackPoll d rc)
        { b with
          pc := if rc > 0 then .readingConnack else .connackTest
          clock := b.clock + d }
  | connackInput {b : MainThread} (rc : Int) :
      -- The return code is ignored.
      b.pc = .readingConnack → b.fw.rejection = none →
      MainThreadStep b (.connackInput rc) { b with pc := .connackTest }
  | keep {b : MainThread} :
      b.pc = .connackTest → b.mqttConnected = true →
      MainThreadStep b .keep { b with pc := .connectTest }
  | abort {b : MainThread} :
      b.pc = .connackTest → b.mqttConnected = false →
      MainThreadStep b .abort { b with pc := .aborting }
  | aborted {b : MainThread} :
      b.pc = .aborting → MainThreadStep b .aborted { b with pc := .connectTest }
  | connected {b : MainThread} :
      b.pc = .connectTest → b.mqttConnected = true →
      MainThreadStep b .connected { b with pc := .subscribing }
  | subscribed {b : MainThread} (rc : Int) :
      -- The return code is ignored.
      b.pc = .subscribing → MainThreadStep b (.subscribed rc) { b with pc := .testing }
  | enter {b : MainThread} :
      b.pc = .testing → b.mqttConnected = true →
      MainThreadStep b .enter { b with pc := .feeding }
  | watchdog {b : MainThread} :
      -- A failure of `wdt_feed` is only logged.
      b.pc = .feeding → MainThreadStep b .watchdog
        { b with
          pc := .draining
          lastWdtFeed := if b.feedDue then b.clock else b.lastWdtFeed
          fed := if b.feedDue then b.clock else b.fed }
  | take {b : MainThread} {m : Sender × OutMsg} {outbound : MsgQueue (Sender × OutMsg) 8} :
      b.pc = .draining → b.fw.outbound.get? = some (m, outbound) →
      MainThreadStep b .take
        { b with
          fw := { b.fw with outbound, taken := b.fw.taken ++ [m] }
          pc := .publishing (m.2.publishParam b.msgId)
          msgId := b.msgId + 1 }
  | publish {b : MainThread} {param : PublishParam OutParam} (rc : Int) :
      b.pc = .publishing param → MainThreadStep b (.publish rc)
        { b with pc := .draining, calls := b.calls ++ [⟨param, rc⟩] }
  | process {b : MainThread} :
      b.pc = .draining → b.fw.outbound.get? = none →
      MainThreadStep b .process { b with pc := .polling }
  | poll {b : MainThread} {timeLeft : Nat} (d : Nat) (rc : Int) (revents : Revents) :
      b.pc = .polling → timeLeft ≤ mqttKeepaliveMs → d ≤ timeLeft →
      MainThreadStep b (.poll d rc revents)
        { b with pc := pollNext rc revents, clock := b.clock + d }
  | input {b : MainThread} {revents : Revents} (rc : Int) :
      b.pc = .reading revents → b.fw.rejection = none →
      MainThreadStep b (.input rc) { b with pc := .processed (inputReturn rc revents) }
  | live {b : MainThread} (rc : Int) :
      b.pc = .keepingAlive → MainThreadStep b (.live rc) { b with pc := .processed rc }
  | processed {b : MainThread} {rc : Int} :
      b.pc = .processed rc → MainThreadStep b (.processed rc)
        { b with pc := if rc ≠ 0 then .disconnecting else .testing }
  | leave {b : MainThread} :
      b.pc = .testing → b.mqttConnected = false →
      MainThreadStep b .leave { b with pc := .disconnecting }
  | disconnect {b : MainThread} (rc : Int) :
      b.pc = .disconnecting → MainThreadStep b (.disconnect rc)
        { b with pc := .connectTest, mqttConnected := false }

/-- The main thread, from the call of `main` at any time after boot. -/
def mainThread (w : World) : Sys where
  St := MainThread
  Label := MainThreadLabel
  start := fun b => ∃ t, b = .boot w t
  step := MainThreadStep env

end Tib
