import HispecTib.App.Startup
import HispecTib.Proofs.Instrument

/-!
# Startup after a reset

A reset, for instance by the watchdog, clears the memory and nothing else: a pin that is high stays
high, a laser stays as it is programmed, and the DAC keeps its codes.

* `startup_levels`: the startup lowers exactly the pins that it configures with success, and no
  other hardware changes.
* `restart_serves`: if the configuration succeeds, the firmware after a reset serves the instrument
  of the sixteen routes, with the supply off and no side known. The lasers and the DAC stay as they
  were before the reset, and the attenuators do not know of it.
-/

open CLib

namespace Tib

/-! ## Pins -/

section Pins

variable {env : Env} {w₀ w : World}

/-- A call of the startup. -/
def HwCall.Starts (c : HwCall) : Prop :=
  (∃ dev, c = .deviceIsReady dev) ∨ ∃ pin, c = .gpioPinConfigure pin

/-- Of the hardware of `w₀`, the pins that the trace configures have become low. -/
structure Lowered (w₀ w : World) : Prop where
  level : ∀ pin, w.level pin = true ↔
    w₀.level pin = true ∧ Event.call (.gpioPinConfigure pin) 0 ∉ w.trace
  regs : w.regs = w₀.regs
  dac : w.dac = w₀.dac

theorem Lowered.reset (w : World) : Lowered w w.reset :=
  ⟨fun _ => (and_iff_left List.not_mem_nil).symm, rfl, rfl⟩

theorem Lowered.call {c : HwCall} (hc : c.Starts) (h : Lowered w₀ w) (rc : Int) :
    Lowered w₀ (w.afterCall c rc) := by
  rcases hc with ⟨dev, rfl⟩ | ⟨pin, rfl⟩
  · have hw : w.afterCall (.deviceIsReady dev) rc = w.record (.call (.deviceIsReady dev) rc) := by
      unfold World.afterCall
      split <;> rfl
    rw [hw]
    refine ⟨fun pin => (h.level pin).trans ?_, h.regs, h.dac⟩
    simp
  · by_cases hrc : rc = 0
    · have hw : w.afterCall (.gpioPinConfigure pin) rc =
          ({ w with level := Function.update w.level pin false }).record
            (.call (.gpioPinConfigure pin) 0) := by
        rw [World.afterCall, if_pos hrc, hrc]
        rfl
      rw [hw]
      refine ⟨fun p => ?_, h.regs, h.dac⟩
      by_cases hp : p = pin
      · simp [hp]
      · simpa [Function.update_of_ne hp, hp] using h.level p
    · have hw : w.afterCall (.gpioPinConfigure pin) rc =
          w.record (.call (.gpioPinConfigure pin) rc) := by rw [World.afterCall, if_neg hrc]
      rw [hw]
      refine ⟨fun p => (h.level p).trans ?_, h.regs, h.dac⟩
      have hne : (0 : Int) ≠ rc := Ne.symm hrc
      simp [hne]

theorem hwCall_lowered {c : HwCall} (hc : c.Starts) :
    Triple (Lowered w₀) (Lowered w₀) (hwCall env c) fun _ => Lowered w₀ :=
  Triple.act (fun _ h => h) fun _ h => h.call hc _

theorem deviceIsReady_lowered (dev : Device) :
    Triple (Lowered w₀) (Lowered w₀) (deviceIsReady env dev) fun _ => Lowered w₀ :=
  (hwCall_lowered (Or.inl ⟨dev, rfl⟩)).bind fun _ => Triple.pure fun _ h => h

theorem gpioPinConfigure_lowered (pin : GpioPin) :
    Triple (Lowered w₀) (Lowered w₀) (gpioPinConfigure env pin) fun _ => Lowered w₀ :=
  hwCall_lowered (Or.inr ⟨pin, rfl⟩)

theorem devicesReady_lowered (modbusRc : Int) (adcReady : Bool) :
    Triple (Lowered w₀) (Lowered w₀) (devicesReady env modbusRc adcReady)
      fun _ => Lowered w₀ := by
  have hpower : Triple (Lowered w₀) (Lowered w₀) (configurePower env) fun _ => Lowered w₀ := by
    refine (deviceIsReady_lowered .gpio0).bind fun ready => ?_
    refine Triple.ite (fun _ => Triple.pure fun _ h => h) fun _ => ?_
    exact (gpioPinConfigure_lowered powerGpio).bind fun _ => Triple.pure fun _ h => h
  refine hpower.bind fun _ => (deviceIsReady_lowered .dac7578).bind fun _ => ?_
  exact (deviceIsReady_lowered .pcal6416a).bind fun _ => Triple.pure fun _ h => h

/-- What `devices_ready` returns: on devices that work, `false`. -/
theorem devicesReady_iff (env : Env) (modbusRc : Int) (adcReady : Bool) (w : World) :
    let out := devicesReady env modbusRc adcReady w.reset
    out.val = true ↔ modbusRc ≠ 0 ∧ adcReady = true ∧
      Event.call (.gpioPinConfigure powerGpio) 0 ∉ out.post.trace ∧
      Event.call (.deviceIsReady .dac7578) 0 ∈ out.post.trace ∧
      Event.call (.deviceIsReady .pcal6416a) 0 ∈ out.post.trace := by
  have htrace : w.reset.trace = [] := rfl
  have hzero (n : Int) : 0 = n ↔ n = 0 := eq_comm
  by_cases hpower : env.answer 0 (.deviceIsReady .gpio0) = 0 <;>
    simp [devicesReady, configurePower, deviceIsReady, gpioPinConfigure, hwCall, htrace, hpower,
      setupModbusClient, hzero, and_assoc, and_comm, and_left_comm]

theorem initSwitch_lowered (i : SwitchPtr) :
    Triple (Lowered w₀) (Lowered w₀) (initSwitch env i) fun _ => Lowered w₀ := by
  refine Triple.getBind fun w hw => Triple.pre (P := Lowered w₀) ?_ fun v hv => hv ▸ hw
  refine Triple.bind (Q := fun _ => Lowered w₀)
    (Triple.modify fun v hv => ⟨hv.level, hv.regs, hv.dac⟩) fun _ => ?_
  refine (gpioPinConfigure_lowered _).bind fun _ => (gpioPinConfigure_lowered _).bind fun _ => ?_
  exact Triple.pure fun _ h => h

theorem setup_lowered : Triple (Lowered w₀) (Lowered w₀) (setupMemsSwitchesAndRoutes env)
    fun _ => Lowered w₀ := by
  refine (deviceIsReady_lowered _).bind fun ready => ?_
  refine Triple.ite (fun _ => Triple.pure fun _ h => h) fun _ => ?_
  refine (Triple.mapList fun i _ => initSwitch_lowered i).bind fun _ => ?_
  exact Triple.modify fun _ h => ⟨h.level, h.regs, h.dac⟩

theorem setupAttenuators_lowered :
    Triple (Lowered w₀) (Lowered w₀) setupAttenuators fun _ => Lowered w₀ :=
  Triple.modify fun _ h => ⟨h.level, h.regs, h.dac⟩

theorem startup_lowered (modbusRc : Int) (adcReady : Bool) :
    Triple (Lowered w₀) (Lowered w₀) (startup env modbusRc adcReady) fun _ => Lowered w₀ :=
  (devicesReady_lowered modbusRc adcReady).bind fun _ => setup_lowered.bind fun _ =>
    setupAttenuators_lowered

theorem startup_hardware (env : Env) (modbusRc : Int) (adcReady : Bool) (w : World) :
    Lowered w (startup env modbusRc adcReady w.reset).post :=
  (startup_lowered modbusRc adcReady w.reset (.reset w)).2

/-- **The startup only lowers pins.** It starts from any hardware. At every point, a pin is high
exactly if it was high before and has not been configured with success, and the registers and the
DAC channels are as they were. -/
theorem startup_levels (env : Env) (modbusRc : Int) (adcReady : Bool) (w : World) :
    (∀ v ∈ (startup env modbusRc adcReady w.reset).points, Lowered w v) ∧
      Lowered w (startup env modbusRc adcReady w.reset).post :=
  startup_lowered modbusRc adcReady w.reset (.reset w)

end Pins

/-! ## Devices that answer -/

section Memory

variable {env : Env} {modbusRc : Int} {adcReady : Bool}

/-- The devices of the startup are ready, and their pins can be configured. -/
structure StartsUp (env : Env) : Prop where
  ready : ∀ n dev, env.answer n (.deviceIsReady dev) = 0
  configured : ∀ n pin, env.answer n (.gpioPinConfigure pin) = 0

theorem hwCall_recorded (e : Event) (c : HwCall) :
    Preserves (fun w => e ∈ w.trace) (hwCall env c) := by
  refine Preserves.act fun w h => ?_
  rw [World.afterCall_trace]
  exact List.mem_append_left _ h

theorem deviceIsReady_recorded (e : Event) (dev : Device) :
    Preserves (fun w => e ∈ w.trace) (deviceIsReady env dev) :=
  (hwCall_recorded e _).bind fun _ => Preserves.pure _

/-- A configuration that succeeds is in the trace. -/
theorem gpioPinConfigure_records (h : StartsUp env) (pin : GpioPin) (w : World) :
    Event.call (.gpioPinConfigure pin) 0 ∈ (gpioPinConfigure env pin w).post.trace := by
  rw [gpioPinConfigure, hwCall, Prog.act_run, World.afterCall_trace, h.configured]
  exact List.mem_append_right _ (List.mem_singleton.mpr rfl)

/-- `mems_switch_init` configures the two pins after it has filled the switch. -/
theorem initSwitch_run (i : SwitchPtr) (w : World) : ∃ s, (initSwitch env i w).post =
    (gpioPinConfigure env (installedSwitch i).gpioB
      (gpioPinConfigure env (installedSwitch i).gpioA (w.setSwitch i s)).post).post := ⟨_, rfl⟩

theorem initSwitch_recorded (e : Event) (i : SwitchPtr) :
    Preserves (fun w => e ∈ w.trace) (initSwitch env i) := by
  intro w hw
  obtain ⟨s, hrun⟩ := initSwitch_run i w
  rw [hrun]
  exact hwCall_recorded e _ _ (hwCall_recorded e _ (w.setSwitch i s) hw)

theorem initSwitch_records (h : StartsUp env) (i : SwitchPtr) (w : World) :
    ∀ pin ∈ [(installedSwitch i).gpioA, (installedSwitch i).gpioB],
      Event.call (.gpioPinConfigure pin) 0 ∈ (initSwitch env i w).post.trace := by
  obtain ⟨s, hrun⟩ := initSwitch_run i w
  rw [hrun]
  have hA := gpioPinConfigure_records h (installedSwitch i).gpioA (w.setSwitch i s)
  have hB := gpioPinConfigure_records h (installedSwitch i).gpioB
    (gpioPinConfigure env (installedSwitch i).gpioA (w.setSwitch i s)).post
  intro pin hpin
  rcases List.mem_pair.mp hpin with rfl | rfl
  · exact hwCall_recorded _ _ _ hA
  · exact hB

/-- With the expander ready, the setup is the eight switches and the router. -/
theorem setup_ready (h : StartsUp env) (w : World) :
    (setupMemsSwitchesAndRoutes env w).post =
      { (Prog.mapList (initSwitch env) memsSwitchPtrs (readyChecked env w)).post with
        router := installedRouter } := by
  rw [setup_run, if_pos (h.ready _ _)]

theorem setup_records (h : StartsUp env) (w : World) : ∀ i ∈ memsSwitchPtrs,
    ∀ pin ∈ [(installedSwitch i).gpioA, (installedSwitch i).gpioB],
      Event.call (.gpioPinConfigure pin) 0 ∈ (setupMemsSwitchesAndRoutes env w).post.trace := by
  rw [setup_ready h]
  refine Preserves.mapList_each (Q := fun i w => ∀ pin ∈
    [(installedSwitch i).gpioA, (installedSwitch i).gpioB],
      Event.call (.gpioPinConfigure pin) 0 ∈ w.trace) ?_ ?_ (readyChecked env w)
  · exact fun i _ v => initSwitch_records h i v
  · exact fun i j _ v hv pin hpin => initSwitch_recorded _ j v (hv pin hpin)

theorem setup_recorded (e : Event) :
    Preserves (fun w => e ∈ w.trace) (setupMemsSwitchesAndRoutes env) := by
  refine (deviceIsReady_recorded e _).bind fun ready => ?_
  refine Preserves.ite (fun _ => Preserves.pure _) fun _ => ?_
  refine (Preserves.mapList fun i _ => initSwitch_recorded e i).bind fun _ => ?_
  exact Preserves.modify fun _ h => h

theorem devicesReady_records (h : StartsUp env) (w : World) :
    Event.call (.gpioPinConfigure powerGpio) 0 ∈
      (devicesReady env modbusRc adcReady w).post.trace := by
  have hpower : Event.call (.gpioPinConfigure powerGpio) 0 ∈
      (configurePower env w).post.trace := by
    simp only [configurePower, deviceIsReady, hwCall, Prog.bind_run, Prog.act_run, Prog.pure_run,
      h.ready, decide_true, Bool.not_true, Bool.false_eq_true, if_false]
    exact gpioPinConfigure_records h powerGpio _
  exact deviceIsReady_recorded _ _ _ (deviceIsReady_recorded _ _ _ hpower)

theorem startup_post (w : World) : (startup env modbusRc adcReady w).post =
    (setupAttenuators (setupMemsSwitchesAndRoutes env
      (devicesReady env modbusRc adcReady w).post).post).post := rfl

theorem setupAttenuators_run (w : World) : (setupAttenuators w).post =
    { w with attenuators := (setupAttenuators w).post.attenuators } := rfl

theorem controlPin_installed : ∀ k < 16, ∃ i ∈ memsSwitchPtrs,
    controlPin k ∈ [(installedSwitch i).gpioA, (installedSwitch i).gpioB] := by decide

/-- **Every pin is low** after a startup that succeeds. -/
theorem startup_low (h : StartsUp env) (modbusRc : Int) (adcReady : Bool) (w : World) :
    (startup env modbusRc adcReady w.reset).post.level powerGpio = false ∧
      AllLow (startup env modbusRc adcReady w.reset).post := by
  have htrace : (startup env modbusRc adcReady w.reset).post.trace =
      (setupMemsSwitchesAndRoutes env
        (devicesReady env modbusRc adcReady w.reset).post).post.trace := by
    rw [startup_post, setupAttenuators_run]
  have hlow {pin : GpioPin} (hpin : Event.call (.gpioPinConfigure pin) 0 ∈
      (setupMemsSwitchesAndRoutes env
        (devicesReady env modbusRc adcReady w.reset).post).post.trace) :
      (startup env modbusRc adcReady w.reset).post.level pin = false := by
    refine Bool.eq_false_iff.mpr fun hhigh => ?_
    obtain ⟨-, hnot⟩ := ((startup_hardware env modbusRc adcReady w).level pin).mp hhigh
    rw [htrace] at hnot
    exact hnot hpin
  refine ⟨hlow ?_, fun k hk => hlow ?_⟩
  · exact setup_recorded _ _ (devicesReady_records h w.reset)
  · obtain ⟨i, hi, hpin⟩ := controlPin_installed k hk
    exact setup_records h _ i hi _ hpin

/-! ## Memory -/

/-- The memory that the setup leaves. -/
def installedWorld : World :=
  { World.boot with
    router := installedRouter
    switches := fun p =>
      if p ∈ memsSwitchPtrs then installedSwitch p else World.boot.switches p }

theorem setup_memory (h : StartsUp env) {w : World} (hw : w.switches = World.boot.switches) :
    (setupMemsSwitchesAndRoutes env w).post.router = installedRouter ∧
      (setupMemsSwitchesAndRoutes env w).post.switches = installedWorld.switches := by
  rw [setup_ready h]
  refine ⟨rfl, funext fun p => ?_⟩
  have hready : (readyChecked env w).switches = World.boot.switches :=
    (World.afterCall_switches _ _ _).trans hw
  exact (initSwitches_switches env memsSwitchPtrs _ p).trans (by rw [hready]; rfl)

theorem setup_wiring (h : StartsUp env) {w : World} (hw : w.switches = World.boot.switches) :
    (setupMemsSwitchesAndRoutes env w).post.wiring = installedWorld.wiring := by
  obtain ⟨hrouter, hswitches⟩ := setup_memory h hw
  rw [World.wiring, hrouter, hswitches]
  rfl

theorem devicesReady_switches :
    Keeps World.switches (devicesReady env modbusRc adcReady) := by
  have hcall (c : HwCall) : Keeps World.switches (hwCall env c) :=
    hwCall_keeps env (fun _ _ => rfl) fun w => World.apply_switches w c
  have hready (dev : Device) : Keeps World.switches (deviceIsReady env dev) :=
    (hcall _).bind fun _ => Keeps.pure _
  have hpower : Keeps World.switches (configurePower env) := by
    refine (hready .gpio0).bind fun ready => Keeps.ite (fun _ => Keeps.pure _) fun _ => ?_
    exact (hcall _).bind fun _ => Keeps.pure _
  refine hpower.bind fun _ => (hready .dac7578).bind fun _ => ?_
  exact (hready .pcal6416a).bind fun _ => Keeps.pure _

theorem startup_memory (h : StartsUp env) (modbusRc : Int) (adcReady : Bool) (w : World) :
    (startup env modbusRc adcReady w.reset).post.router = installedRouter ∧
      (startup env modbusRc adcReady w.reset).post.switches = installedWorld.switches := by
  rw [startup_post, setupAttenuators_run]
  exact setup_memory h (devicesReady_switches w.reset)

/-! ## The instrument after a restart -/

/-- The routes of the setup as connections. -/
def routeTable : List Connection := routeDefs.map fun d =>
  ⟨cstr d.input, cstr d.output, d.steps.map fun s => (switchNames.idxOf s.switchName, s.state)⟩

/-- The supply is off, and no side is known. -/
def Instrument.fresh : Instrument := ⟨false, fun p => if p ∈ memsSwitchPtrs then chr 'U' else 0⟩

theorem installedWorld_installed : Installed routeTable installedWorld := by
  have hquiet : StartsUp quietEnv := ⟨fun _ _ => rfl, fun _ _ => rfl⟩
  have hwire := setup_wiring hquiet (w := World.boot) rfl
  have hpin : PowerPinFree installedWorld := by
    rintro pin ⟨sw, hsw, hpin⟩ rfl
    have hswitch : installedWorld.switches sw = installedSwitch sw := if_pos hsw
    rw [hswitch] at hpin
    simp [MemsSwitch.gpioA, MemsSwitch.gpioB, installedSwitch, powerGpio] at hpin
  have hinst := (setup_installed quietEnv).congr hwire.symm hpin
  exact ⟨rfl, hinst.routesOk, hinst.exclusive, hinst.pinFree⟩

/-- **A restart** ends with the table installed, and the instrument fresh. -/
theorem startup_shows (h : StartsUp env) (modbusRc : Int) (adcReady : Bool) (w : World) :
    Shows routeTable (startup env modbusRc adcReady w.reset).post .fresh := by
  have hlow := (startup_low h modbusRc adcReady w).1
  obtain ⟨hrouter, hswitches⟩ := startup_memory h modbusRc adcReady w
  generalize (startup env modbusRc adcReady w.reset).post = w' at *
  have hwire : w'.wiring = installedWorld.wiring := by
    rw [World.wiring, hrouter, hswitches]
    rfl
  have hpin : PowerPinFree w' := by
    rintro pin ⟨sw, hsw, hpin⟩
    rw [hrouter] at hsw
    rw [hswitches] at hpin
    exact installedWorld_installed.pinFree pin ⟨sw, hsw, hpin⟩
  refine ⟨installedWorld_installed.congr hwire hpin, ?_⟩
  have hstates : w'.states = Instrument.fresh.side := by
    funext p
    rw [World.states, hswitches]
    exact apply_ite MemsSwitch.state _ _ _
  rw [World.instrument, hlow, hstates]
  rfl

theorem startup_attenuators (w : World) {i : Nat} (hi : i < numAttenuators) :
    ((startup env modbusRc adcReady w).post.attenuators i).voltage = 0 := by
  rw [startup_post]
  generalize (setupMemsSwitchesAndRoutes env _).post = w'
  match i, hi with
  | 0, _ | 1, _ | 2, _ | 3, _ | 4, _ | 5, _ => rfl

/-- **The firmware restarts.** After a reset of any world, with devices that start up and calls to
the power pin that succeed, the firmware is serving as the fresh instrument of the sixteen routes in
every reachable state of the main loop. The registers of the lasers and the codes of the DAC are
still those of before the reset, and every attenuator records 0 V. -/
theorem restart_serves (hstart : StartsUp env) (hpin : PowerPinWorks env) (modbusRc : Int)
    (adcReady : Bool) (w : World) {b : MainLoop}
    (h : (mainLoop env (startup env modbusRc adcReady w.reset).post).Reachable b) :
    Serving env routeTable .fresh b ∧
      b.fw.world.regs = w.regs ∧ b.fw.world.dac = w.dac ∧
      ∀ i < numAttenuators, (b.fw.world.attenuators i).voltage = 0 := by
  obtain ⟨hinst, hfresh⟩ := startup_shows hstart modbusRc adcReady w
  have hhardware := startup_hardware env modbusRc adcReady w
  have hzero : ∀ i < numAttenuators,
      ((startup env modbusRc adcReady w.reset).post.attenuators i).voltage = 0 :=
    fun i hi => startup_attenuators _ hi
  obtain ⟨done, hx⟩ := exchange_of_reachable ((mainLoop_refines env _).reachable h)
  have honly : OnlyPins (startup env modbusRc adcReady w.reset).post b.fw.world := by
    rw [hx.world_eq]
    exact Preserves.mapList (fun cmd _ => OnlyPins.dispatch env cmd) _ (.refl _)
  refine ⟨hfresh ▸ serving_of_reachable hpin hinst h, ?_, ?_, fun i hi => ?_⟩
  · rw [honly.regs, hhardware.regs]
  · rw [honly.dac, hhardware.dac]
  · rw [honly.attenuators]
    exact hzero i hi

/-- Every pin is high, and every DAC channel drives a voltage. -/
def drivenWorld : World := { World.boot with level := fun _ => true, dac := fun _ => some 2048 }

/-- A reset of that world, and then one request. -/
theorem restart_serves_request :
    ∃ b : MainLoop, (b.published.filterMap fromExecutor).length = 1 ∧
      Serving setEnv routeTable .fresh b ∧ b.fw.world.dac = drivenWorld.dac := by
  obtain ⟨cmd, hcmd⟩ := setPublish_decoded
  obtain ⟨b, ls, hexec, -, -, -, hpub⟩ :=
    request_run hcmd (startup setEnv 0 true drivenWorld.reset).post
  obtain ⟨hserves, -, hdac, -⟩ := restart_serves ⟨fun _ _ => rfl, fun _ _ => rfl⟩
    (fun _ _ _ => rfl) 0 true drivenWorld ⟨_, ls, rfl, hexec⟩
  exact ⟨b, hpub, hserves, hdac⟩

end Memory

end Tib
