import HispecTib.App.Main
import HispecTib.Base.Sys

/-!
# Threads and queues (`main.c`, `photodiode.c`)

The firmware as a transition system. An access to a queue is one step, and so is a dispatch, since
only the executor touches the world. The steps belong to four loops:

* the main loop takes messages from `outbound_queue` to publish them, and it runs
  `mqtt_command_handler` when a publish arrives;
* the executor gets a command, dispatches it and puts the reply, waiting for room;
* the photodiode thread puts samples on `photodiode_queue`, which it purges when it is full;
* `photodiode_publish_handler` moves the samples to `outbound_queue`.

Messages on `outbound_queue` are marked with the loop that put them; `accepted` and `taken` record
what was enqueued and what was published. No step looks at the marks or at the records.
-/

open CLib

namespace Tib

/-- Who put a message on `outbound_queue`. -/
inductive Sender where
  | executor
  | commandHandler
  | photodiode
deriving DecidableEq

/-- Where the loop of `executor_thread_fn` is, with its `cmd` or its `om`. -/
inductive Executor where
  | waiting
  | holding (cmd : Command)
  | replying (om : OutMsg)

/-- Where the loop of `photodiode_thread` is, with its `msg`. -/
inductive Photodiode where
  | sampling
  | storing (msg : OutMsg)
  | purging (msg : OutMsg)

/-- The message of one pair of samples, at the time of the clock in seconds. -/
def photodiodeMsg (yj hk : Int16) (time : Int64) : OutMsg :=
  let text := str "\x7b\"yj\":" ++ decimalInt yj.toInt ++ str ", \"hk\":" ++
    decimalInt hk.toInt ++ str ", \"time\":" ++ decimalInt time.toInt ++ str "\x7d"
  { msgType := .get
    topic := (Buf.zero _).write 0 (snprintf maxTopicLen (str "dt/hsfib-tib/photodiode"))
    qos := 0
    payloadLen := text.length
    payload := (Buf.zero _).write 0 (snprintf maxPayloadLen text)
    correlationData := .zero _
    corrLen := 0 }

structure Firmware where
  inbound : InboundQueue
  outbound : MsgQueue (Sender × OutMsg) 8
  photodiodeQueue : MsgQueue OutMsg 4
  executor : Executor
  /-- The `r` that `mqtt_command_handler` is about to put. -/
  rejection : Option OutMsg
  photodiode : Photodiode
  /-- The `r` that `photodiode_publish_handler` is about to put. -/
  sample : Option OutMsg
  world : World
  accepted : List Command
  taken : List (Sender × OutMsg)

/-- The loops before their first steps, in a world that the setup has left. -/
def Firmware.boot (w : World) : Firmware :=
  ⟨.empty, .empty, .empty, .waiting, none, .sampling, none, w, [], []⟩

inductive Label where
  | receive (pub : Publish)
  | reject
  | take
  | fetch
  | dispatch
  | deliver
  | measure (yj hk : Int16) (time : Int64)
  | store
  | full
  | purge
  | collect
  | forward

variable (env : Env)

/-- `mqtt_command_handler` up to its put on `outbound_queue`, if it has one. -/
def Firmware.receive (s : Firmware) (pub : Publish) : Firmware :=
  let (exit, inbound, reply) := mqttCommandSubmit env pub s.inbound
  { s with
    inbound
    rejection := reply
    accepted := match exit with
      | .enqueued cmd => s.accepted ++ [cmd]
      | _ => s.accepted }

/-- The steps. The handler of a publish runs on the main thread, so the main loop takes nothing
and receives nothing until its reply is put. -/
inductive Step : Firmware → Label → Firmware → Prop
  | receive {s : Firmware} (pub : Publish) :
      s.rejection = none → Step s (.receive pub) (s.receive env pub)
  | reject {s : Firmware} {om : OutMsg} :
      s.rejection = some om → Step s .reject
        { s with rejection := none, outbound := s.outbound.offer (.commandHandler, om) }
  | take {s : Firmware} {m : Sender × OutMsg} {outbound : MsgQueue (Sender × OutMsg) 8} :
      s.rejection = none → s.outbound.get? = some (m, outbound) →
      Step s .take { s with outbound, taken := s.taken ++ [m] }
  | fetch {s : Firmware} {cmd : Command} {inbound : InboundQueue} :
      s.executor = .waiting → s.inbound.get? = some (cmd, inbound) →
      Step s .fetch { s with inbound, executor := .holding cmd }
  | dispatch {s : Firmware} {cmd : Command} :
      s.executor = .holding cmd → Step s .dispatch
        { s with
          executor := .replying (Tib.dispatch env cmd s.world).val
          world := (Tib.dispatch env cmd s.world).post }
  | deliver {s : Firmware} {om : OutMsg} {outbound : MsgQueue (Sender × OutMsg) 8} :
      -- `K_FOREVER`: a full queue disables the step.
      s.executor = .replying om → s.outbound.put? (.executor, om) = some outbound →
      Step s .deliver { s with outbound, executor := .waiting }
  | measure {s : Firmware} (yj hk : Int16) (time : Int64) :
      s.photodiode = .sampling → Step s (.measure yj hk time)
        { s with photodiode := .storing (photodiodeMsg yj hk time) }
  | store {s : Firmware} {msg : OutMsg} {photodiodeQueue : MsgQueue OutMsg 4} :
      s.photodiode = .storing msg → s.photodiodeQueue.put? msg = some photodiodeQueue →
      Step s .store { s with photodiodeQueue, photodiode := .sampling }
  | full {s : Firmware} {msg : OutMsg} :
      s.photodiode = .storing msg → s.photodiodeQueue.put? msg = none →
      Step s .full { s with photodiode := .purging msg }
  | purge {s : Firmware} {msg : OutMsg} :
      s.photodiode = .purging msg → Step s .purge
        { s with photodiodeQueue := .empty, photodiode := .storing msg }
  | collect {s : Firmware} {r : OutMsg} {photodiodeQueue : MsgQueue OutMsg 4} :
      s.sample = none → s.photodiodeQueue.get? = some (r, photodiodeQueue) →
      Step s .collect { s with photodiodeQueue, sample := some r }
  | forward {s : Firmware} {r : OutMsg} :
      s.sample = some r → Step s .forward
        { s with sample := none, outbound := s.outbound.offer (.photodiode, r) }

/-- The firmware, from the world that the setup has left. -/
def firmware (w : World) : Sys := ⟨Firmware, Label, (· = .boot w), Step env⟩

end Tib
