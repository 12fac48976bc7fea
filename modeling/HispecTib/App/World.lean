import HispecTib.Base.CString
import HispecTib.Base.Prog
import Mathlib.Logic.Function.Basic

/-!
# Devices, their drivers, and what the firmware keeps in memory

* `HwCall`: one call into a Zephyr driver; `Event`: a call with its return code, or a sleep.
* `Env`: what the firmware does not decide: the return code of every driver call (`answer`, by
  the number of events before it), what `json_obj_parse` does, the addresses of the two payload
  buffers, and what uninitialised local variables hold.
* `World`: the router, the switches, the attenuators, and the hardware behind the drivers: pin
  levels, Modbus registers, DAC codes. `World.trace` lists every event since boot.
* `hwCall`: a driver call. A call that does not return 0 changes nothing behind the driver.

Every call and every sleep has an observation point right before it.
-/

open CLib

namespace Tib

/-! ## Driver calls -/

/-- The devices the firmware talks to: the MCU port with the power pin (`gpio0`), the GPIO
expander (`pcal6416a`) and the DAC (`dac7578`). -/
inductive Device where
  | gpio0
  | pcal6416a
  | dac7578
deriving DecidableEq

/-- A pin of a GPIO port. -/
structure GpioPin where
  dev : Device
  pin : Nat
deriving DecidableEq

/-- `power_gpio`. -/
def powerGpio : GpioPin := ⟨.gpio0, 6⟩

inductive HwCall where
  | deviceIsReady (dev : Device)
  | gpioPinConfigure (p : GpioPin)
  | gpioPinGet (p : GpioPin)
  | gpioPinSet (p : GpioPin) (level : Bool)
  | dacChannelSetup (channel : Nat)
  | dacWriteValue (channel code : Nat)
  | modbusReadHoldingRegs (node : Nat) (addr : UInt16)
  | modbusWriteHoldingRegs (node : Nat) (addr value : UInt16)
deriving DecidableEq

/-- What the firmware did to the outside: a driver call and its return code, or a sleep. -/
inductive Event where
  | call (c : HwCall) (rc : Int)
  | sleep (ms : Nat)
deriving DecidableEq

/-! ## JSON -/

/-- The token type of a descriptor; `floats n` is a `JSON_OBJ_DESCR_ARRAY` of at most `n`
`JSON_TOK_FLOAT`s. -/
inductive JsonTok where
  | string
  | number
  | true_
  | floats (n : Nat)
deriving DecidableEq

/-- A `json_obj_descr`: the member's name and its token type. -/
structure JsonDescr where
  name : List Byte
  tok : JsonTok
deriving DecidableEq

/-- What a field of the target struct holds after `json_obj_parse` has stored into it. -/
inductive JsonField where
  /-- A `char` array: these bytes, from its start on. -/
  | chars (bytes : List Byte)
  | int (n : Int)
  | bool (b : Bool)
  | float (q : Rat)
  | floats (qs : List Rat)

/-- The outcome of one `json_obj_parse`: the return code, the text afterwards (the parser works in
place), and for each descriptor what was stored; `none` leaves the field as it was. -/
structure JsonResult where
  rc : Int
  text : List Byte
  fields : List (Option JsonField)

namespace JsonResult

variable (r : JsonResult) (i : Nat)

def field : Option JsonField := (r.fields[i]?).join

/-- A `char[n]` field of a zero-initialised struct. -/
def charsField (n : Nat) : Buf n :=
  match r.field i with
  | some (.chars b) => (Buf.zero n).write 0 b
  | _ => Buf.zero n

/-- A `uint16_t` field of a zero-initialised struct: the low 16 bits of the number. -/
def uint16Field : UInt16 :=
  match r.field i with
  | some (.int n) => UInt16.ofInt n
  | _ => 0

/-- A `bool` field that starts `false`. -/
def boolField : Bool :=
  match r.field i with
  | some (.bool b) => b
  | _ => false

/-- A `float` field of a zero-initialised struct, whose number the parser stores as a `.float`,
whatever the token type of the descriptor. -/
def floatField : Rat :=
  match r.field i with
  | some (.float q) => q
  | _ => 0

/-- An array field of a zero-initialised struct and its length. -/
def floatsField : List Rat :=
  match r.field i with
  | some (.floats qs) => qs
  | _ => []

end JsonResult

/-- `json_obj_parse`, by the address of the text, the text and the descriptors. -/
abbrev JsonObjParse := Nat → List Byte → List JsonDescr → JsonResult

/-- `parse`, but for the empty text, which `json_obj_parse` refuses. -/
def refuseEmpty (parse : JsonObjParse) : JsonObjParse := fun addr text d =>
  if text = [] then ⟨-22, text, []⟩ else parse addr text d

/-! ## The environment -/

structure Env where
  jsonObjParse : JsonObjParse
  /-- The return code of a call that is made after `n` events. -/
  answer : Nat → HwCall → Int
  /-- The address of the payload in the executor's `cmd`. -/
  cmdPayload : Nat
  /-- The address of the payload in the `cmd` of `mqtt_command_handler`. -/
  pubPayload : Nat
  /-- What the two uninitialised `char[16]` of a handler hold. -/
  nameBuf : Buf 16
  settingBuf : Buf 16
  /-- What the uninitialised `raw` of a getter of the laser driver holds. -/
  raw : UInt16

/-! ## Switches and routes (`mems_switching.h`) -/

/-- `MEMS_SWITCH_NAME_LEN`. -/
abbrev memsSwitchNameLen : Nat := 24
/-- `MEMS_SOURCEDEST_MAX_LEN`. -/
abbrev memsSourcedestMaxLen : Nat := 24
/-- `MEMS_SWITCH_PULSE_DELAY_MS`. -/
abbrev memsSwitchPulseDelayMs : Nat := 2
/-- `MEMS_ROUTER_MAX_SWITCHES`. -/
abbrev memsRouterMaxSwitches : Nat := 8
/-- `MEMS_ROUTER_MAX_ROUTES`. -/
abbrev memsRouterMaxRoutes : Nat := 18
/-- `MEMS_ROUTER_MAX_ROUTE_PATH`. -/
abbrev memsRouterMaxRoutePath : Nat := 5

/-- `struct mems_switch`; `state` is `'A'`, `'B'` or `'U'`. -/
structure MemsSwitch where
  gpioDev : Device
  pinA : Nat
  pinB : Nat
  state : Byte
  name : Buf memsSwitchNameLen
deriving DecidableEq

/-- A `struct mems_switch *`. -/
abbrev SwitchPtr := Nat

structure MemsRouteStep where
  switchName : List Byte
  state : Byte
deriving DecidableEq

structure MemsRouteId where
  input : Buf memsSourcedestMaxLen
  output : Buf memsSourcedestMaxLen

structure MemsRouteKey where
  inputName : List Byte
  outputName : List Byte
deriving DecidableEq, Inhabited

/-- `struct mems_route`: `steps` is the used part of the array, `num_steps` its length. -/
structure MemsRoute where
  key : MemsRouteKey
  steps : List MemsRouteStep
  steps_pos : 0 < steps.length
  steps_le : steps.length ≤ memsRouterMaxRoutePath
deriving DecidableEq

/-- `struct mems_router`: the used parts of the two arrays. -/
structure MemsRouter where
  switches : List SwitchPtr
  routes : List MemsRoute
  switches_le : switches.length ≤ memsRouterMaxSwitches
  routes_le : routes.length ≤ memsRouterMaxRoutes
deriving DecidableEq

/-- The zero-initialised router. -/
def MemsRouter.zero : MemsRouter := ⟨[], [], Nat.zero_le _, Nat.zero_le _⟩

/-! ## Attenuators (`attenuator.h`) -/

structure DacChannelCfg where
  channelId : Nat
  resolution : Nat
  buffered : Bool
deriving DecidableEq

/-- `struct attenuator`, in exact arithmetic. -/
structure Attenuator where
  coeffDbToVolt : Fin 3 → Rat
  coeffVoltToDb : Fin 3 → Rat
  voltage : Rat
  cfg : DacChannelCfg

/-! ## The state -/

structure World where
  router : MemsRouter
  /-- `mems_switches`. -/
  switches : SwitchPtr → MemsSwitch
  /-- `attenuators`. -/
  attenuators : Nat → Attenuator
  /-- The level of every pin. -/
  level : GpioPin → Bool
  /-- The holding registers of the Modbus nodes. -/
  regs : Nat → UInt16 → UInt16
  /-- The code that each DAC channel last accepted. -/
  dac : Nat → Option Nat
  trace : List Event

namespace World

/-- Memory at boot: statically allocated objects are zero, no pin is driven high. -/
def boot : World where
  router := .zero
  switches := fun _ => ⟨.gpio0, 0, 0, 0, .zero _⟩
  attenuators := fun _ => ⟨fun _ => 0, fun _ => 0, 0, ⟨0, 0, false⟩⟩
  level := fun _ => false
  regs := fun _ _ => 0
  dac := fun _ => none
  trace := []

instance : Inhabited World := ⟨boot⟩

/-- What a call that returned 0 does behind the driver. -/
def apply (w : World) : HwCall → World
  | .gpioPinConfigure p => { w with level := Function.update w.level p false }
  | .gpioPinSet p v => { w with level := Function.update w.level p v }
  | .dacWriteValue ch code => { w with dac := Function.update w.dac ch (some code) }
  | .modbusWriteHoldingRegs node addr v =>
    { w with regs := Function.update w.regs node (Function.update (w.regs node) addr v) }
  | _ => w

def record (w : World) (e : Event) : World := { w with trace := w.trace ++ [e] }

def setSwitch (w : World) (p : SwitchPtr) (s : MemsSwitch) : World :=
  { w with switches := Function.update w.switches p s }

def setAttenuator (w : World) (i : Nat) (a : Attenuator) : World :=
  { w with attenuators := Function.update w.attenuators i a }

/-- The state after call `c` returned `rc`. -/
def afterCall (w : World) (c : HwCall) (rc : Int) : World :=
  (if rc = 0 then w.apply c else w).record (.call c rc)

section Fields

variable (w : World) (c : HwCall) (rc : Int) (e : Event)

@[simp] theorem apply_router : (w.apply c).router = w.router := by cases c <;> rfl
@[simp] theorem apply_switches : (w.apply c).switches = w.switches := by cases c <;> rfl
@[simp] theorem apply_attenuators : (w.apply c).attenuators = w.attenuators := by cases c <;> rfl
@[simp] theorem apply_trace : (w.apply c).trace = w.trace := by cases c <;> rfl

@[simp] theorem record_router : (w.record e).router = w.router := rfl
@[simp] theorem record_switches : (w.record e).switches = w.switches := rfl
@[simp] theorem record_attenuators : (w.record e).attenuators = w.attenuators := rfl
@[simp] theorem record_level : (w.record e).level = w.level := rfl
@[simp] theorem record_trace : (w.record e).trace = w.trace ++ [e] := rfl

@[simp] theorem afterCall_router : (w.afterCall c rc).router = w.router := by
  unfold afterCall; split <;> simp
@[simp] theorem afterCall_switches : (w.afterCall c rc).switches = w.switches := by
  unfold afterCall; split <;> simp
@[simp] theorem afterCall_attenuators : (w.afterCall c rc).attenuators = w.attenuators := by
  unfold afterCall; split <;> simp
@[simp] theorem afterCall_trace : (w.afterCall c rc).trace = w.trace ++ [.call c rc] := by
  unfold afterCall; split <;> simp

variable (p : SwitchPtr) (s : MemsSwitch) (i : Nat) (a : Attenuator)

@[simp] theorem setSwitch_router : (w.setSwitch p s).router = w.router := rfl
@[simp] theorem setSwitch_switches :
    (w.setSwitch p s).switches = Function.update w.switches p s := rfl
@[simp] theorem setSwitch_attenuators : (w.setSwitch p s).attenuators = w.attenuators := rfl
@[simp] theorem setSwitch_level : (w.setSwitch p s).level = w.level := rfl
@[simp] theorem setSwitch_regs : (w.setSwitch p s).regs = w.regs := rfl
@[simp] theorem setSwitch_trace : (w.setSwitch p s).trace = w.trace := rfl

@[simp] theorem setAttenuator_router : (w.setAttenuator i a).router = w.router := rfl
@[simp] theorem setAttenuator_switches : (w.setAttenuator i a).switches = w.switches := rfl
@[simp] theorem setAttenuator_attenuators :
    (w.setAttenuator i a).attenuators = Function.update w.attenuators i a := rfl
@[simp] theorem setAttenuator_regs : (w.setAttenuator i a).regs = w.regs := rfl
@[simp] theorem setAttenuator_trace : (w.setAttenuator i a).trace = w.trace := rfl

end Fields

end World

/-! ## Calls as program steps -/

variable (env : Env)

/-- A driver call: the environment answers, the call takes effect if the answer is 0. -/
def hwCall (c : HwCall) : Prog World Int :=
  Prog.act fun w => (env.answer w.trace.length c, w.afterCall c (env.answer w.trace.length c))

/-- `k_sleep` and `k_msleep`. -/
def kSleep (ms : Nat) : Prog World Unit := Prog.act fun w => ((), w.record (.sleep ms))

/-- A call keeps what neither the trace nor its effect touches. -/
theorem hwCall_keeps {ρ : Type} {f : World → ρ} {c : HwCall} (hr : ∀ w e, f (w.record e) = f w)
    (hc : ∀ w, f (w.apply c) = f w) : Keeps f (hwCall env c) := by
  refine Keeps.act fun w => ?_
  unfold World.afterCall
  rw [hr]
  split
  · exact hc w
  · rfl

def deviceIsReady (dev : Device) : Prog World Bool := do
  let rc ← hwCall env (.deviceIsReady dev)
  pure (rc = 0)

def gpioPinConfigure (p : GpioPin) : Prog World Int := hwCall env (.gpioPinConfigure p)

def gpioPinSet (p : GpioPin) (level : Bool) : Prog World Int := hwCall env (.gpioPinSet p level)

/-- The level as 0 or 1, or a negative error. -/
def gpioPinGet (p : GpioPin) : Prog World Int := do
  let w ← Prog.get
  let rc ← hwCall env (.gpioPinGet p)
  pure (if rc < 0 then rc else if w.level p then 1 else 0)

def dacChannelSetup (cfg : DacChannelCfg) : Prog World Int :=
  hwCall env (.dacChannelSetup cfg.channelId)

def dacWriteValue (channel code : Nat) : Prog World Int :=
  hwCall env (.dacWriteValue channel code)

/-- The return code and what `*value`, which is `value` before the call, holds after it: the
register if the code is 0. An error and an exception code of the device store nothing. -/
def modbusReadHoldingRegs (node : Nat) (addr value : UInt16) : Prog World (Int × UInt16) := do
  let w ← Prog.get
  let rc ← hwCall env (.modbusReadHoldingRegs node addr)
  pure (rc, if rc = 0 then w.regs node addr else value)

def modbusWriteHoldingRegs (node : Nat) (addr value : UInt16) : Prog World Int :=
  hwCall env (.modbusWriteHoldingRegs node addr value)

end Tib
