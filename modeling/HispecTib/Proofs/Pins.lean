import HispecTib.Proofs.Switches

/-!
# Control pins over whole runs

`completedPulses` reads the pulses off the trace: a pin driven high, a delay, the same pin driven
low, a delay. The invariant between two commands is `Phase W none .idle`; inside a pulse its two
indices move with the pulse (`pulse_rule`). `pins_and_tracking`: over every run of setup and switch
commands at most one control pin is high, and every switch knows the side of its last pulse.
-/

open CLib

namespace Tib

/-! ## Pulses in the trace -/

/-- How far the last pulse has come. -/
inductive PulsePhase where
  | idle
  | raised (pin : GpioPin)
  | held (pin : GpioPin)
  | lowered (pin : GpioPin)
deriving DecidableEq

/-- The phase, and the pins of the completed pulses, the last one first. -/
structure PulseLog where
  phase : PulsePhase
  completed : List GpioPin

def PulseLog.step : PulseLog → Event → PulseLog
  | ⟨_, done⟩, .call (.gpioPinSet pin true) rc => ⟨if rc = 0 then .raised pin else .idle, done⟩
  | ⟨phase, done⟩, .call (.gpioPinSet pin false) rc =>
    ⟨if rc = 0 ∧ phase = .held pin then .lowered pin else .idle, done⟩
  | ⟨.raised pin, done⟩, .sleep _ => ⟨.held pin, done⟩
  | ⟨.lowered pin, done⟩, .sleep _ => ⟨.idle, pin :: done⟩
  | log, _ => log

def pulseLog (trace : List Event) : PulseLog := trace.foldl PulseLog.step ⟨.idle, []⟩

/-- The pins on which a pulse was completed, the last one first. -/
def completedPulses (trace : List Event) : List GpioPin := (pulseLog trace).completed

theorem pulseLog_append (trace : List Event) (e : Event) :
    pulseLog (trace ++ [e]) = (pulseLog trace).step e := by
  rw [pulseLog, List.foldl_append]
  rfl

def MemsSwitch.gpioA (s : MemsSwitch) : GpioPin := ⟨s.gpioDev, s.pinA⟩

def MemsSwitch.gpioB (s : MemsSwitch) : GpioPin := ⟨s.gpioDev, s.pinB⟩

/-- The side of the last pulse on one of the two pins of a switch, `'U'` without one. -/
def MemsSwitch.lastSide (s : MemsSwitch) (completed : List GpioPin) : Byte :=
  match completed.find? fun pin => pin = s.gpioA ∨ pin = s.gpioB with
  | none => chr 'U'
  | some pin => if pin = s.gpioA then chr 'A' else chr 'B'

theorem lastSide_own {s : MemsSwitch} (hs : s.gpioA ≠ s.gpioB) {state : Byte} {pin : GpioPin}
    (h : s.pinFor state = some pin) (done : List GpioPin) : s.lastSide (pin :: done) = state := by
  unfold MemsSwitch.pinFor at h
  split_ifs at h with ha hb
  · obtain rfl : s.gpioA = pin := Option.some.inj h
    simp [MemsSwitch.lastSide, ha]
  · obtain rfl : s.gpioB = pin := Option.some.inj h
    simp [MemsSwitch.lastSide, hs.symm, hb]

theorem lastSide_other {s : MemsSwitch} {pin : GpioPin} (ha : pin ≠ s.gpioA) (hb : pin ≠ s.gpioB)
    (done : List GpioPin) : s.lastSide (pin :: done) = s.lastSide done := by
  simp [MemsSwitch.lastSide, ha, hb]

/-! ## The invariant -/

/-- The sixteen pins of the expander. -/
def controlPin (k : Nat) : GpioPin := ⟨.pcal6416a, k⟩

def AllLow (w : World) : Prop := ∀ k < 16, w.level (controlPin k) = false

def AtMostOneHigh (w : World) : Prop :=
  ∀ i < 16, ∀ j < 16, w.level (controlPin i) = true → w.level (controlPin j) = true → i = j

/-- Every switch of the router records the side of its last completed pulse. -/
def Tracks (w : World) : Prop :=
  ∀ p ∈ w.router.switches,
    (w.switches p).state = (w.switches p).lastSide (completedPulses w.trace)

/-- What holds at every point of a run. -/
def Safe (w : World) : Prop := AtMostOneHigh w ∧ Tracks w

/-- A wiring in which no two sides share a pin. -/
structure Wired (W : MemsRouter × (SwitchPtr → MemsSwitch)) : Prop where
  own : ∀ p ∈ W.1.switches, (W.2 p).gpioA ≠ (W.2 p).gpioB
  apart : ∀ p ∈ W.1.switches, ∀ q ∈ W.1.switches, p ≠ q →
    ∀ pin ∈ [(W.2 p).gpioA, (W.2 p).gpioB], pin ≠ (W.2 q).gpioA ∧ pin ≠ (W.2 q).gpioB

/-- The pin that is high, if any, and the phase of the pulse on it. -/
structure Phase (W : MemsRouter × (SwitchPtr → MemsSwitch)) (high : Option GpioPin)
    (phase : PulsePhase) (w : World) : Prop where
  wiring_eq : w.wiring = W
  level_eq : ∀ k < 16, w.level (controlPin k) = decide (high = some (controlPin k))
  phase_eq : (pulseLog w.trace).phase = phase
  tracks : Tracks w

/-- Between the last delay of a pulse and the record of the new state. -/
structure Completed (W : MemsRouter × (SwitchPtr → MemsSwitch)) (pin : GpioPin) (w : World) :
    Prop where
  wiring_eq : w.wiring = W
  low : AllLow w
  phase_eq : (pulseLog w.trace).phase = .idle
  last : ∃ done, completedPulses w.trace = pin :: done ∧
    ∀ p ∈ w.router.switches, (w.switches p).state = (w.switches p).lastSide done

section Rules

variable {env : Env} {W : MemsRouter × (SwitchPtr → MemsSwitch)} {high high' : Option GpioPin}
  {phase phase' : PulsePhase} {pin : GpioPin}

theorem Phase.safe {w : World} (h : Phase W high phase w) : Safe w := by
  refine ⟨fun i hi j hj hli hlj => ?_, h.tracks⟩
  have hi' := of_decide_eq_true ((h.level_eq i hi).symm.trans hli)
  have hj' := of_decide_eq_true ((h.level_eq j hj).symm.trans hlj)
  have hij : controlPin i = controlPin j := Option.some.inj (hi'.symm.trans hj')
  exact congrArg GpioPin.pin hij

theorem Phase.allLow {w : World} (h : Phase W none phase w) : AllLow w := fun k hk => by
  simpa using h.level_eq k hk

/-- A write to a pin that succeeds. `hl` says which pin is high then, `hp` how far the pulse is. -/
theorem gpioPinSet_rule (hgpio : ∀ n p v, env.answer n (.gpioPinSet p v) = 0) {v : Bool}
    (hl : ∀ q, (if q = pin then v else decide (high = some q)) = decide (high' = some q))
    (hp : ∀ done, PulseLog.step ⟨phase, done⟩ (.call (.gpioPinSet pin v) 0) = ⟨phase', done⟩) :
    Triple (Phase W high phase) Safe (gpioPinSet env pin v) fun _ => Phase W high' phase' := by
  refine Triple.act (fun w h => h.safe) fun w h => ?_
  have hlog : pulseLog (w.trace ++ [.call (.gpioPinSet pin v) 0]) =
      ⟨phase', completedPulses w.trace⟩ := by
    rw [pulseLog_append, ← hp, ← h.phase_eq]
    rfl
  simp only [hgpio]
  refine ⟨?_, fun k hk => ?_, ?_, fun p hp' => ?_⟩
  · rw [← h.wiring_eq]
    rfl
  · rw [← hl, ← h.level_eq k hk]
    simp [World.afterCall, World.apply, Function.update_apply]
  · rw [World.afterCall_trace, hlog]
  · rw [World.afterCall_switches, completedPulses, World.afterCall_trace, hlog]
    rw [World.afterCall_router] at hp'
    exact h.tracks p hp'

/-- A delay that does not complete a pulse. -/
theorem kSleep_rule {ms : Nat}
    (hp : ∀ done, PulseLog.step ⟨phase, done⟩ (.sleep ms) = ⟨phase', done⟩) :
    Triple (Phase W high phase) Safe (kSleep ms) fun _ => Phase W high phase' := by
  refine Triple.act (fun w h => h.safe) fun w h => ?_
  have hlog : pulseLog (w.trace ++ [.sleep ms]) = ⟨phase', completedPulses w.trace⟩ := by
    rw [pulseLog_append, ← hp, ← h.phase_eq]
    rfl
  refine ⟨h.wiring_eq, h.level_eq, ?_, fun p hp' => ?_⟩
  · rw [World.record_trace, hlog]
  · rw [completedPulses, World.record_trace, hlog]
    exact h.tracks p hp'

/-- The delay that completes a pulse. -/
theorem kSleep_completes {ms : Nat} :
    Triple (Phase W none (.lowered pin)) Safe (kSleep ms) fun _ => Completed W pin := by
  refine Triple.act (fun w h => h.safe) fun w h => ?_
  have hlog : pulseLog (w.trace ++ [.sleep ms]) = ⟨.idle, pin :: completedPulses w.trace⟩ := by
    rw [pulseLog_append]
    have hph := h.phase_eq
    cases hlog : pulseLog w.trace with
    | mk phase done =>
      rw [hlog] at hph
      subst hph
      rw [completedPulses, hlog]
      rfl
  refine ⟨h.wiring_eq, h.allLow, ?_, completedPulses w.trace, ?_, h.tracks⟩
  · rw [World.record_trace, hlog]
  · rw [completedPulses, World.record_trace, hlog]

/-- **One pulse.** -/
theorem pulse_rule (hgpio : ∀ n p v, env.answer n (.gpioPinSet p v) = 0) :
    Triple (Phase W none .idle) Safe (pulse env pin) fun _ => Completed W pin := by
  have hlow : Triple (Phase W none .idle) Safe (gpioPinSet env pin false)
      fun _ => Phase W none .idle :=
    gpioPinSet_rule hgpio (fun q => by simp) fun done => by simp [PulseLog.step]
  have hraise : Triple (Phase W none .idle) Safe (gpioPinSet env pin true)
      fun _ => Phase W (some pin) (.raised pin) :=
    gpioPinSet_rule hgpio (fun q => by simp [eq_comm]) fun done => by simp [PulseLog.step]
  have hfall : Triple (Phase W (some pin) (.held pin)) Safe (gpioPinSet env pin false)
      fun _ => Phase W none (.lowered pin) :=
    gpioPinSet_rule hgpio (fun q => by simp [eq_comm]) fun done => by simp [PulseLog.step]
  unfold pulse
  refine hlow.bind fun _ => (kSleep_rule fun done => rfl).bind fun _ => ?_
  refine hraise.bind fun _ => (kSleep_rule fun done => rfl).bind fun _ => ?_
  exact hfall.bind fun _ => kSleep_completes

theorem mem_pins_of_pinFor {s : MemsSwitch} {state : Byte} (h : s.pinFor state = some pin) :
    pin ∈ [s.gpioA, s.gpioB] := by
  unfold MemsSwitch.pinFor at h
  split_ifs at h <;> obtain rfl := Option.some.inj h
  · exact List.mem_cons_self
  · exact List.mem_cons_of_mem _ List.mem_cons_self

/-- The record of the new state after a completed pulse on the pin of that state. -/
theorem tracks_record (hW : Wired W) {w : World} (hwire : w.wiring = W) {sw : SwitchPtr}
    {state : Byte} {done : List GpioPin} (hlast : completedPulses w.trace = pin :: done)
    (hstates : ∀ p ∈ w.router.switches, (w.switches p).state = (w.switches p).lastSide done)
    (hsw : sw ∈ W.1.switches) (hpin : (W.2 sw).pinFor state = some pin) :
    Tracks (w.setSwitch sw { w.switches sw with state }) := by
  intro p hp
  have hp' : p ∈ W.1.switches := hwire ▸ hp
  have hpins : W.2 p = { w.switches p with state := 0 } := by
    rw [← hwire]
    rfl
  have hside : (w.switches p).lastSide (pin :: done) = (W.2 p).lastSide (pin :: done) := by
    rw [hpins]
    rfl
  rw [World.setSwitch_switches, World.setSwitch_trace, hlast]
  by_cases hpq : p = sw
  · subst hpq
    rw [Function.update_self]
    exact ((lastSide_own (hW.own p hp') hpin done).symm.trans hside.symm)
  · rw [Function.update_of_ne hpq, hside, hstates p hp]
    obtain ⟨ha, hb⟩ := hW.apart sw hsw p hp' (Ne.symm hpq) pin (mem_pins_of_pinFor hpin)
    rw [lastSide_other ha hb, hpins]
    rfl

theorem Completed.record (hW : Wired W) {w : World} {sw : SwitchPtr} {state : Byte}
    (h : Completed W pin w) (hsw : sw ∈ W.1.switches) (hpin : (W.2 sw).pinFor state = some pin) :
    Phase W none .idle (w.setSwitch sw { w.switches sw with state }) := by
  obtain ⟨done, hdone, hstates⟩ := h.last
  refine ⟨(wiring_setState w sw state).trans h.wiring_eq, fun k hk => ?_, h.phase_eq,
    tracks_record hW h.wiring_eq hdone hstates hsw hpin⟩
  rw [World.setSwitch_level, h.low k hk]
  simp

/-- **Setting one switch.** -/
theorem memsSwitchSetState_rule (hgpio : ∀ n p v, env.answer n (.gpioPinSet p v) = 0)
    (hW : Wired W) {sw : SwitchPtr} (hsw : sw ∈ W.1.switches) (state : Byte) :
    Triple (Phase W none .idle) Safe (memsSwitchSetState env sw state)
      fun _ => Phase W none .idle := by
  refine Triple.getBind fun w hw => ?_
  split
  · exact Triple.pure fun v hv => hv ▸ hw
  · rename_i pin hpin
    have hpin' : (W.2 sw).pinFor state = some pin := by
      rw [← hw.wiring_eq]
      exact hpin
    refine Triple.pre (P := Phase W none .idle) ?_ fun v hv => hv ▸ hw
    refine (pulse_rule hgpio).bind fun _ => ?_
    refine Triple.bind (Q := fun _ => Phase W none .idle) (Triple.modify fun v hv => ?_) fun _ =>
      Triple.pure fun v hv => hv
    exact hv.record hW hsw hpin'

/-- A switch that is found by its name is one of the router's. -/
theorem found_rule (hgpio : ∀ n p v, env.answer n (.gpioPinSet p v) = 0) (hW : Wired W)
    {w : World} (hw : Phase W none .idle w) {name : List Byte} {sw : SwitchPtr}
    (hfind : w.findSwitch name = some sw) (state : Byte) :
    Triple (Phase W none .idle) Safe (memsSwitchSetState env sw state)
      fun _ => Phase W none .idle := by
  have hsw : sw ∈ W.1.switches := by
    rw [← hw.wiring_eq]
    exact mem_of_findSwitch hfind
  exact memsSwitchSetState_rule hgpio hW hsw state

/-! ## Runs -/

/-- One step of a route. -/
theorem memsrouteStep_rule (hgpio : ∀ n p v, env.answer n (.gpioPinSet p v) = 0)
    (hW : Wired W) (cmd : Command) (step : MemsRouteStep) :
    Triple (Phase W none .idle) Safe (memsrouteStep env cmd step)
      fun _ => Phase W none .idle := by
  refine Triple.getBind fun w hw => ?_
  split
  · exact Triple.pure fun v hv => hv ▸ hw
  · rename_i sw hfind
    refine Triple.pre (P := Phase W none .idle) ?_ fun v hv => hv ▸ hw
    refine (found_rule hgpio hW hw hfind step.state).bind fun _ => ?_
    exact Triple.ite (fun _ => Triple.pure fun v hv => hv) fun _ => Triple.pure fun v hv => hv

/-- **One switch command**, valid or not. -/
theorem SwitchCommand.rule (hgpio : ∀ n p v, env.answer n (.gpioPinSet p v) = 0) (hW : Wired W)
    (c : SwitchCommand) :
    Triple (Phase W none .idle) Safe (c.run env) fun _ => Phase W none .idle := by
  cases c with
  | memsroute cmd =>
    refine Triple.ite (fun _ => Triple.pure fun v hv => hv) fun _ => ?_
    refine Triple.getBind fun w hw => ?_
    split
    · exact Triple.pure fun v hv => hv ▸ hw
    · rename_i route hroute
      have hloop : Triple (Phase W none .idle) Safe
          (Prog.firstSome (memsrouteStep env cmd) route.steps) fun _ => Phase W none .idle :=
        Triple.firstSome (I := fun _ => Phase W none .idle)
          (fun done step rest _ => (memsrouteStep_rule hgpio hW cmd step).post fun r v hv => by
            cases r <;> exact hv) fun v hv => hv
      refine Triple.pre (hloop.bind fun r => ?_) fun v hv => hv ▸ hw
      split <;> exact Triple.pure fun v hv => hv
  | mems cmd =>
    refine Triple.ite (fun _ => Triple.pure fun v hv => hv) fun _ => ?_
    refine Triple.ite (fun _ => Triple.pure fun v hv => hv) fun _ => ?_
    refine Triple.getBind fun w hw => ?_
    split
    · exact Triple.pure fun v hv => hv ▸ hw
    · rename_i sw hfind
      refine Triple.pre (P := Phase W none .idle) ?_ fun v hv => hv ▸ hw
      refine (found_rule hgpio hW hw hfind _).bind fun _ => ?_
      exact Triple.ite (fun _ => Triple.pure fun v hv => hv) fun _ => Triple.pure fun v hv => hv

end Rules

/-! ## From boot on -/

section Boot

variable {env : Env}

/-- The state during setup: no router yet, no pulse yet. -/
structure Fresh (w : World) : Prop where
  router_eq : w.router = .zero
  low : AllLow w
  log_eq : pulseLog w.trace = ⟨.idle, []⟩

theorem AllLow.atMostOneHigh {w : World} (h : AllLow w) : AtMostOneHigh w := by
  intro i hi j _ hli
  rw [h i hi] at hli
  cases hli

theorem Fresh.safe {w : World} (h : Fresh w) : Safe w := by
  refine ⟨h.low.atMostOneHigh, fun p hp => ?_⟩
  rw [h.router_eq] at hp
  cases hp

theorem deviceIsReady_fresh (dev : Device) :
    Triple Fresh Safe (deviceIsReady env dev) fun _ => Fresh := by
  refine Triple.bind (Q := fun _ => Fresh) (Triple.act (fun w h => h.safe) fun w h => ?_) fun _ =>
    Triple.pure fun w h => h
  refine ⟨(World.afterCall_router _ _ _).trans h.router_eq, fun k hk => ?_, ?_⟩
  · rw [← h.low k hk, World.afterCall]
    split <;> rfl
  · rw [World.afterCall_trace, pulseLog_append, h.log_eq]
    rfl

theorem gpioPinConfigure_fresh (pin : GpioPin) :
    Triple Fresh Safe (gpioPinConfigure env pin) fun _ => Fresh := by
  refine Triple.act (fun w h => h.safe) fun w h => ?_
  refine ⟨(World.afterCall_router _ _ _).trans h.router_eq, fun k hk => ?_, ?_⟩
  · have hlow := h.low k hk
    simp only [World.afterCall]
    split
    · simp [World.apply, Function.update_apply, hlow]
    · exact hlow
  · rw [World.afterCall_trace, pulseLog_append, h.log_eq]
    rfl

theorem initSwitch_fresh (i : SwitchPtr) :
    Triple Fresh Safe (initSwitch env i) fun _ => Fresh := by
  refine Triple.getBind fun w hw => ?_
  refine Triple.pre (P := Fresh) ?_ fun v hv => hv ▸ hw
  refine Triple.bind (Q := fun _ => Fresh)
    (Triple.modify fun v hv => ⟨hv.router_eq, hv.low, hv.log_eq⟩) fun _ => ?_
  refine (gpioPinConfigure_fresh _).bind fun _ => (gpioPinConfigure_fresh _).bind fun _ => ?_
  exact Triple.pure fun v hv => hv

theorem setup_fresh (env : Env) : Triple Fresh Safe (setupMemsSwitchesAndRoutes env)
    fun _ w => AllLow w ∧ pulseLog w.trace = ⟨.idle, []⟩ := by
  refine (deviceIsReady_fresh _).bind fun ready => ?_
  refine Triple.ite (fun _ => Triple.pure fun w h => ⟨h.low, h.log_eq⟩) fun _ => ?_
  refine (Triple.mapList fun i _ => initSwitch_fresh i).bind fun _ => ?_
  exact Triple.modify fun w h => ⟨h.low, h.log_eq⟩

theorem installed_wired :
    (∀ p ∈ installedRouter.switches, (installedSwitch p).gpioA ≠ (installedSwitch p).gpioB) ∧
    ∀ p ∈ installedRouter.switches, ∀ q ∈ installedRouter.switches, p ≠ q →
      ∀ pin ∈ [(installedSwitch p).gpioA, (installedSwitch p).gpioB],
        pin ≠ (installedSwitch q).gpioA ∧ pin ≠ (installedSwitch q).gpioB := by decide

/-- Setup ends between two commands, with a wiring in which no pin is shared. -/
theorem setup_idle (env : Env) :
    let w := (setupMemsSwitchesAndRoutes env .boot).post
    Wired w.wiring ∧ Phase w.wiring none .idle w := by
  intro w
  have hfresh : Fresh .boot := ⟨rfl, fun _ _ => rfl, rfl⟩
  obtain ⟨hlow, hlog⟩ := (setup_fresh env .boot hfresh).2
  have hlevel : ∀ k < 16, w.level (controlPin k) =
      decide ((none : Option GpioPin) = some (controlPin k)) := by
    intro k hk
    rw [hlow k hk]
    rfl
  have hphase : (pulseLog w.trace).phase = .idle := by rw [hlog]
  rcases setup_installs env .boot with ⟨hr, hsw⟩ | ⟨hr, -⟩
  · have hptrs : w.router.switches = memsSwitchPtrs :=
      (congrArg MemsRouter.switches hr).trans rfl
    have hgpio : ∀ p ∈ w.router.switches, (w.wiring.2 p).gpioA = (installedSwitch p).gpioA ∧
        (w.wiring.2 p).gpioB = (installedSwitch p).gpioB := by
      intro p hp
      rw [← hsw p (hptrs ▸ hp)]
      exact ⟨rfl, rfl⟩
    obtain ⟨hown, hapart⟩ := installed_wired
    rw [← hr] at hown hapart
    refine ⟨⟨fun p hp => ?_, fun p hp q hq hpq => ?_⟩, rfl, hlevel, hphase, fun p hp => ?_⟩
    · rw [(hgpio p hp).1, (hgpio p hp).2]
      exact hown p hp
    · rw [(hgpio p hp).1, (hgpio p hp).2, (hgpio q hq).1, (hgpio q hq).2]
      exact hapart p hp q hq hpq
    · rw [completedPulses, hlog, hsw p (hptrs ▸ hp)]
      rfl
  · have hnone : w.router.switches = [] := by
      rw [show w.router = _ from hr]
      rfl
    refine ⟨⟨fun p hp => ?_, fun p hp => ?_⟩, rfl, hlevel, hphase, fun p hp => ?_⟩
    all_goals exact absurd hp (hnone ▸ List.not_mem_nil)

/-- Setup, and then switch commands, one at a time. -/
def bootAndRun (env : Env) (history : List SwitchCommand) : Prog World (List OutMsg) := do
  setupMemsSwitchesAndRoutes env
  runCommands env history

/-- **Pins and tracking.** With GPIO writes that succeed, over every run of setup and switch
commands: before every call at most one control pin is high and every switch records the side of
its last completed pulse; after the run, with no command executing, all control pins are low. -/
theorem pins_and_tracking (hgpio : ∀ n p v, env.answer n (.gpioPinSet p v) = 0)
    (history : List SwitchCommand) :
    (∀ w ∈ (bootAndRun env history .boot).points, AtMostOneHigh w ∧ Tracks w) ∧
      AllLow (bootAndRun env history .boot).post ∧
      Tracks (bootAndRun env history .boot).post := by
  obtain ⟨hW, hidle⟩ := setup_idle env
  have hsetup := (setup_fresh env .boot ⟨rfl, fun _ _ => rfl, rfl⟩).1
  have hrun := Triple.mapList fun c (_ : c ∈ history) => c.rule hgpio hW
  obtain ⟨hpoints, hend⟩ := hrun _ hidle
  refine ⟨fun w hw => ?_, hend.allLow, hend.tracks⟩
  rcases List.mem_append.mp hw with hw | hw
  · exact hsetup w hw
  · exact hpoints w hw

/-- A run of setup and one route command on hardware that always answers 0. -/
theorem pins_after_one_route :
    (∀ w ∈ (bootAndRun quietEnv [.memsroute routeRequest] .boot).points,
        AtMostOneHigh w ∧ Tracks w) ∧
      AllLow (bootAndRun quietEnv [.memsroute routeRequest] .boot).post ∧
      Tracks (bootAndRun quietEnv [.memsroute routeRequest] .boot).post :=
  pins_and_tracking (fun _ _ _ => rfl) _

end Boot

end Tib
