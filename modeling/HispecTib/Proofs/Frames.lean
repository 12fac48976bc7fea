import HispecTib.Base.Views
import HispecTib.Proofs.Pins
import HispecTib.Proofs.Settings

/-!
# What each handler touches

A property of the world that the effects of a group of handlers preserve is preserved by the
handlers, whatever the drivers answer. The effects include what the handlers leave in the trace.

* `power_preserves`: the power, status and sleep handlers use the power pin only.
* `lasers_preserve`: the laser handlers use the Modbus nodes as well.
* `switches_preserve`: the switch and route handlers drive the pins of the router's switches and
  record states only.
* `atten_preserves`: the attenuator handlers use the DAC and change the attenuator of the channel
  that the key names only.
-/

open CLib

namespace Tib

variable {env : Env} {P : World → Prop}

/-- What a call does when it succeeds, with its record, is all that it does. -/
theorem hwCall_preserves {c : HwCall} (hr : ∀ w rc, P w → P (w.record (.call c rc)))
    (hc : ∀ w, P w → P (w.apply c)) : Preserves P (hwCall env c) := by
  refine Preserves.act fun w hw => ?_
  unfold World.afterCall
  refine hr _ _ ?_
  split
  · exact hc w hw
  · exact hw

/-! ## Power -/

/-- The handlers of power, status and sleep. -/
def powerFuncs : List DispatchFunc := [.powerGet, .powerSet, .statusGet, .sleepSet]

/-- The calls to the power pin. -/
def HwCall.OfPower : HwCall → Prop
  | .gpioPinGet pin | .gpioPinSet pin _ => pin = powerGpio
  | _ => False

/-- What these handlers can do. -/
structure PowerEffects (P : World → Prop) : Prop where
  call : ∀ w c rc, c.OfPower → P w → P (w.record (.call c rc))
  sleep : ∀ w ms, P w → P (w.record (.sleep ms))
  power : ∀ w v, P w → P (w.apply (.gpioPinSet powerGpio v))

namespace PowerEffects

theorem powerEnabled (h : PowerEffects P) : Preserves P (powerEnabled env) :=
  Preserves.bind (Preserves.bind Preserves.get fun _ =>
    Preserves.bind (hwCall_preserves (fun w rc => h.call w _ rc rfl) fun _ hw => hw) fun _ =>
      Preserves.pure _) fun _ => Preserves.pure _

theorem gpioPinSet (h : PowerEffects P) (v : Bool) : Preserves P (gpioPinSet env powerGpio v) :=
  hwCall_preserves (fun w rc => h.call w _ rc rfl) fun w hw => h.power w v hw

theorem enablePower (h : PowerEffects P) : Preserves P (enablePower env) := by
  refine Preserves.bind h.powerEnabled fun on => ?_
  refine Preserves.ite (fun _ => Preserves.pure _) fun _ => ?_
  exact Preserves.bind (h.gpioPinSet true) fun _ => Preserves.pure _

theorem disablePower (h : PowerEffects P) : Preserves P (disablePower env) := by
  refine Preserves.bind h.powerEnabled fun on => ?_
  refine Preserves.ite (fun _ => Preserves.pure _) fun _ => ?_
  exact Preserves.bind (h.gpioPinSet false) fun _ => Preserves.pure _

theorem enablePowerAndWait (h : PowerEffects P) : Preserves P (enablePowerAndWait env) := by
  refine Preserves.bind h.enablePower fun on => ?_
  exact Preserves.ite (fun _ => Preserves.act fun w hw => h.sleep w _ hw) fun _ => Preserves.pure _

theorem powerReport (h : PowerEffects P) (cmd : Command) : Preserves P (powerReport env cmd) :=
  Preserves.bind h.powerEnabled fun _ => Preserves.pure _

end PowerEffects

theorem power_preserves (h : PowerEffects P) {func : DispatchFunc} (hf : func ∈ powerFuncs)
    (cmd : Command) : Preserves P (func.run env cmd) := by
  cases func with
  | powerGet | statusGet => exact h.powerReport cmd
  | powerSet =>
    refine Preserves.ite (fun _ => Preserves.pure _) fun _ => ?_
    refine Preserves.ite (fun _ => ?_) fun _ => ?_
    · exact Preserves.bind h.enablePower fun _ => Preserves.pure _
    · exact Preserves.bind h.disablePower fun _ => Preserves.pure _
  | sleepSet =>
    refine Preserves.ite (fun _ => Preserves.pure _) fun _ => ?_
    refine Preserves.ite (fun _ => ?_) fun _ => ?_
    · exact Preserves.bind h.disablePower fun _ => Preserves.pure _
    · exact Preserves.bind (Preserves.pure _) fun _ => Preserves.pure _
  | _ => simp [powerFuncs] at hf

/-! ## Lasers -/

/-- The handlers of lasers. -/
def laserFuncs : List DispatchFunc := [.laserSettingGet, .laserSettingSet]

/-- The calls to the Modbus nodes. -/
def HwCall.OfBus : HwCall → Prop
  | .modbusReadHoldingRegs _ _ | .modbusWriteHoldingRegs _ _ _ => True
  | _ => False

/-- What these handlers can do. -/
structure LaserEffects (P : World → Prop) : Prop extends PowerEffects P where
  bus : ∀ w c rc, c.OfBus → P w → P (w.record (.call c rc))
  register : ∀ w node addr v, P w → P (w.apply (.modbusWriteHoldingRegs node addr v))

theorem lasers_preserve (h : LaserEffects P) {func : DispatchFunc} (hf : func ∈ laserFuncs)
    (cmd : Command) : Preserves P (func.run env cmd) := by
  cases func with
  | laserSettingGet =>
    refine Preserves.ite (fun _ => Preserves.pure _) fun _ => ?_
    refine Preserves.ite (fun _ => Preserves.pure _) fun _ => ?_
    split
    · exact Preserves.pure _
    · refine Preserves.bind h.enablePowerAndWait fun _ => ?_
      refine Preserves.bind (Preserves.bind (Preserves.bind Preserves.get fun _ =>
        Preserves.bind (hwCall_preserves (fun w rc => h.bus w _ rc trivial) fun _ hw => hw) fun _ =>
          Preserves.pure _) fun _ => Preserves.ite (fun _ => Preserves.pure _) fun _ =>
            Preserves.pure _) fun r => ?_
      exact Preserves.ite (fun _ => Preserves.pure _) fun _ => Preserves.pure _
  | laserSettingSet =>
    refine Preserves.ite (fun _ => Preserves.pure _) fun _ => ?_
    refine Preserves.ite (fun _ => Preserves.pure _) fun _ => ?_
    refine Preserves.ite (fun _ => Preserves.pure _) fun _ => ?_
    split
    · exact Preserves.pure _
    · refine Preserves.bind h.enablePowerAndWait fun _ => ?_
      refine Preserves.bind (Preserves.bind (hwCall_preserves (fun w rc => h.bus w _ rc trivial)
        fun w hw => h.register w _ _ _ hw) fun _ =>
          Preserves.ite (fun _ => Preserves.pure _) fun _ => Preserves.pure _) fun r => ?_
      exact Preserves.ite (fun _ => Preserves.pure _) fun _ => Preserves.pure _
  | _ => simp [laserFuncs] at hf

/-! ## Switches and routes -/

/-- The handlers of switches and routes. -/
def switchFuncs : List DispatchFunc := [.memsrouteGet, .memsrouteSet, .memsGet, .memsSet]

/-- The pin is a control pin of a switch of the router. -/
def ControlPin (w : World) (pin : GpioPin) : Prop :=
  ∃ p ∈ w.router.switches, pin ∈ [(w.switches p).gpioA, (w.switches p).gpioB]

/-- A record of a state leaves the wiring as it is. -/
theorem controlPin_setState {w : World} {sw : SwitchPtr} {b : Byte} {pin : GpioPin} :
    ControlPin (w.setSwitch sw { w.switches sw with state := b }) pin ↔ ControlPin w pin := by
  have hpins (q : SwitchPtr) :
      (Function.update w.switches sw { w.switches sw with state := b } q).gpioA =
          (w.switches q).gpioA ∧
        (Function.update w.switches sw { w.switches sw with state := b } q).gpioB =
          (w.switches q).gpioB := by
    by_cases hq : q = sw
    · subst hq
      simp [MemsSwitch.gpioA, MemsSwitch.gpioB]
    · simp [Function.update_of_ne hq]
  simp only [ControlPin, World.setSwitch_switches, hpins, World.setSwitch_router]

/-- What these handlers can do. -/
structure SwitchEffects (P : World → Prop) : Prop where
  call : ∀ w pin v rc, ControlPin w pin → P w → P (w.record (.call (.gpioPinSet pin v) rc))
  sleep : ∀ w ms, P w → P (w.record (.sleep ms))
  pin : ∀ w pin v, ControlPin w pin → P w → P (w.apply (.gpioPinSet pin v))
  state : ∀ w p b, P w → P (w.setSwitch p { w.switches p with state := b })

namespace SwitchEffects

theorem pulse (h : SwitchEffects P) (env : Env) (pin : GpioPin) :
    Preserves (fun w => P w ∧ ControlPin w pin) (pulse env pin) := by
  have hset (v : Bool) : Preserves (fun w => P w ∧ ControlPin w pin) (gpioPinSet env pin v) := by
    refine hwCall_preserves (fun w rc hw => ⟨h.call w pin v rc hw.2 hw.1, hw.2⟩) fun w hw => ?_
    exact ⟨h.pin w pin v hw.2 hw.1, hw.2⟩
  have hsleep (ms : Nat) : Preserves (fun w => P w ∧ ControlPin w pin) (kSleep ms) :=
    Preserves.act fun w hw => ⟨h.sleep w ms hw.1, hw.2⟩
  unfold Tib.pulse
  refine Preserves.bind (hset _) fun _ => Preserves.bind (hsleep _) fun _ => ?_
  refine Preserves.bind (hset _) fun _ => Preserves.bind (hsleep _) fun _ => ?_
  exact Preserves.bind (hset _) fun _ => Preserves.bind (hsleep _) fun _ => Preserves.pure _

/-- A switch of the router is set. -/
theorem setState (h : SwitchEffects P) (env : Env) {w : World} (hw : P w) {sw : SwitchPtr}
    (hsw : sw ∈ w.router.switches) (state : Byte) :
    P (memsSwitchSetState env sw state w).post := by
  cases hpin : (w.switches sw).pinFor state with
  | none =>
    rw [memsSwitchSetState_none env hpin]
    exact hw
  | some pin =>
    have hpulse := (h.pulse env pin w ⟨hw, sw, hsw, mem_pins_of_pinFor hpin⟩).1
    rw [memsSwitchSetState_run env hpin, ← pulse_switches env pin w]
    exact h.state _ _ _ hpulse

theorem routeStep (h : SwitchEffects P) (cmd : Command) (step : MemsRouteStep) :
    Preserves P (memsrouteStep env cmd step) := by
  refine Preserves.getBind fun w hw => ?_
  cases hfind : memsRouterFindSwitch w.switches w.router step.switchName with
  | none => exact hw
  | some sw =>
    have hset := h.setState env hw (mem_of_findSwitch hfind) step.state
    simp only [Prog.bind_run, Prog.ite_run, Prog.pure_run]
    split <;> exact hset

end SwitchEffects

theorem switches_preserve (h : SwitchEffects P) {func : DispatchFunc} (hf : func ∈ switchFuncs)
    (cmd : Command) : Preserves P (func.run env cmd) := by
  cases func with
  | memsrouteGet =>
    refine Preserves.bind Preserves.get fun w => ?_
    dsimp only
    split <;> exact Preserves.pure _
  | memsrouteSet =>
    refine Preserves.ite (fun _ => Preserves.pure _) fun _ => ?_
    refine Preserves.bind Preserves.get fun w => ?_
    split
    · exact Preserves.pure _
    · refine Preserves.bind (Preserves.firstSome fun step _ => h.routeStep cmd step) fun r => ?_
      split <;> exact Preserves.pure _
  | memsGet =>
    refine Preserves.ite (fun _ => Preserves.pure _) fun _ => ?_
    refine Preserves.bind Preserves.get fun w => ?_
    split <;> exact Preserves.pure _
  | memsSet =>
    refine Preserves.ite (fun _ => Preserves.pure _) fun _ => ?_
    refine Preserves.ite (fun _ => Preserves.pure _) fun _ => Preserves.getBind fun w hw => ?_
    cases hfind : memsRouterFindSwitch w.switches w.router (keyPair env cmd).setting.data with
    | none => exact hw
    | some sw =>
      simp only [Prog.bind_run, Prog.ite_run, Prog.pure_run]
      split <;> exact h.setState env hw (mem_of_findSwitch hfind) _
  | _ => simp [switchFuncs] at hf

/-! ## Attenuators -/

/-- The handlers of attenuators. -/
def attenFuncs : List DispatchFunc := [.attenSettingGet, .attenSettingSet]

/-- The calls to the DAC. -/
def HwCall.OfDac : HwCall → Prop
  | .deviceIsReady dev => dev = .dac7578
  | .dacChannelSetup _ | .dacWriteValue _ _ => True
  | _ => False

/-- What these handlers can do for channel `i`. -/
structure AttenEffects (i : Nat) (P : World → Prop) : Prop where
  call : ∀ w c rc, c.OfDac → P w → P (w.record (.call c rc))
  dac : ∀ w ch code, P w → P (w.apply (.dacWriteValue ch code))
  store : ∀ w a, P w → P (w.setAttenuator i a)

namespace AttenEffects

variable {i : Nat}

theorem set (h : AttenEffects i P) (value : Rat) (raw : Bool) :
    Preserves P (attenuatorSet env i value raw) := by
  refine Preserves.getBind fun w hw => ?_
  have hput (cfg : DacChannelCfg) (code : Nat) : Preserves P (dacPut env cfg code) := by
    unfold dacPut
    refine Preserves.bind (Preserves.bind (hwCall_preserves (fun w rc => h.call w _ rc rfl)
      fun _ hw => hw) fun _ => Preserves.pure _) fun _ =>
        Preserves.ite (fun _ => Preserves.pure _) fun _ => ?_
    refine Preserves.bind (hwCall_preserves (fun w rc => h.call w _ rc trivial) fun _ hw => hw)
      fun _ => Preserves.ite (fun _ => Preserves.pure _) fun _ => ?_
    refine Preserves.bind (hwCall_preserves (fun w rc => h.call w _ rc trivial)
      fun w hw => h.dac w _ _ hw) fun _ => ?_
    exact Preserves.ite (fun _ => Preserves.pure _) fun _ => Preserves.pure _
  exact hput _ _ _ (h.store w _ hw)

theorem setVoltage (h : AttenEffects i P) (env : Env) (cmd : Command) (raw : Bool) :
    Preserves P (attenSetVoltage env cmd i raw) :=
  Preserves.ite (fun _ => Preserves.pure _) fun _ =>
    Preserves.bind (h.set _ _) fun _ => Preserves.pure _

end AttenEffects

theorem atten_preserves {cmd : Command} (h : AttenEffects (attenId env cmd) P)
    {func : DispatchFunc} (hf : func ∈ attenFuncs) : Preserves P (func.run env cmd) := by
  cases func with
  | attenSettingGet =>
    refine Preserves.ite (fun _ => Preserves.pure _) fun _ => ?_
    refine Preserves.ite (fun _ => Preserves.pure _) fun _ => ?_
    refine Preserves.bind Preserves.get fun w => ?_
    refine Preserves.ite (fun _ => Preserves.pure _) fun _ => ?_
    exact Preserves.ite (fun _ => Preserves.pure _) fun _ => Preserves.pure _
  | attenSettingSet =>
    refine Preserves.ite (fun _ => Preserves.pure _) fun _ => ?_
    refine Preserves.ite (fun _ => Preserves.pure _) fun _ => ?_
    refine Preserves.ite (fun _ => ?_) fun _ => Preserves.ite (fun _ => h.setVoltage env cmd true)
      fun _ => Preserves.ite (fun _ => h.setVoltage env cmd false) fun _ => Preserves.pure _
    refine Preserves.ite (fun _ => Preserves.pure _) fun _ => ?_
    refine Preserves.bind Preserves.get fun w => ?_
    refine Preserves.bind (Preserves.modify fun w hw => h.store w _ hw) fun _ => ?_
    exact Preserves.bind (h.set _ _) fun _ => Preserves.pure _
  | _ => simp [attenFuncs] at hf

end Tib
