import HispecTib.Base.Sys
import HispecTib.Proofs.Pins
import HispecTib.Proofs.Walks

/-!
# Pulses that fail

`mems_switch_set_state` ignores what its three writes return. Here each write succeeds or fails by
itself.

* `recordsPulse_iff`: the calls that record a state after a whole pulse only.
* `CommandSucceeds`: every write of the pulses of a command succeeds.
* `pulses_recorded_iff`: with that, over every run of setup and switch commands every switch has
  the side of its last completed pulse.
-/

open CLib

namespace Tib

/-! ## One call -/

section Call

variable (env : Env) (sw : SwitchPtr) (state : Byte) (w : World)

/-- The state has a pin, and the low, high and low writes to it succeed. -/
def PulseSucceeds : Prop :=
  ∃ pin, (w.switches sw).pinFor state = some pin ∧ PulsesSucceed env w.trace.length [pin]

/-- A whole pulse is recorded and answered with 0; without one, an error is returned and nothing is
recorded. -/
structure RecordsPulse : Prop where
  whole : (memsSwitchSetState env sw state w).val = 0 → PulseSucceeds env sw state w
  recorded : PulseSucceeds env sw state w →
    (memsSwitchSetState env sw state w).val = 0 ∧
    (memsSwitchSetState env sw state w).post.switches =
      Function.update w.switches sw { w.switches sw with state }
  failed : ¬ PulseSucceeds env sw state w →
    (memsSwitchSetState env sw state w).val ≠ 0 ∧
    (memsSwitchSetState env sw state w).post.switches = w.switches

/-- **One call.** -/
theorem recordsPulse_iff : RecordsPulse env sw state w ↔
    ((w.switches sw).pinFor state = none ∨ PulseSucceeds env sw state w) := by
  cases hpin : (w.switches sw).pinFor state with
  | none =>
    have hnone : ¬ PulseSucceeds env sw state w := by
      rintro ⟨pin, hp, -⟩
      rw [hpin] at hp
      cases hp
    have hrun := memsSwitchSetState_none env hpin
    refine iff_of_true ⟨fun h => ?_, fun h => absurd h hnone, fun _ => ?_⟩ (Or.inl rfl)
    · rw [hrun] at h
      cases h
    · rw [hrun]
      exact ⟨by simp, rfl⟩
  | some pin =>
    have hval : (memsSwitchSetState env sw state w).val = 0 := by
      rw [memsSwitchSetState_run env hpin]
    have hpost := memsSwitchSetState_switches env hpin
    refine ⟨fun h => Or.inr (h.whole hval), fun h => ?_⟩
    have hok := h.resolve_left nofun
    exact ⟨fun _ => hok, fun _ => ⟨hval, hpost⟩, fun hno => absurd hok hno⟩

end Call

/-! ## Commands -/

section Commands

variable (env : Env)

/-- Every write of the pulses of the command succeeds. -/
def CommandSucceeds (w : World) : SwitchCommand → Prop
  | .memsroute cmd => ∀ route, selectedRoute env cmd w.router = some route →
    PulsesSucceed env w.trace.length (walkPins w route.steps)
  | .mems cmd => ∀ pin, memsTarget env cmd w = some pin → PulsesSucceed env w.trace.length [pin]

/-- The invariant between two commands: no pulse is under way, and every switch of the wiring `W`
has the side of its last completed pulse. -/
structure Between (W : MemsRouter × (SwitchPtr → MemsSwitch)) (w : World) : Prop where
  wiring_eq : w.wiring = W
  idle : (pulseLog w.trace).phase = .idle
  tracks : Tracks w

variable {env} {W : MemsRouter × (SwitchPtr → MemsSwitch)} {w : World}

/-- A pulse whose writes succeed is completed. -/
theorem pulseLog_pulse {t : Nat} {trace : List Event} {pin : GpioPin}
    (hidle : (pulseLog trace).phase = .idle) (h : PulsesSucceed env t [pin]) :
    pulseLog (trace ++ pulseEvents env t pin) = ⟨.idle, pin :: completedPulses trace⟩ := by
  obtain ⟨⟨hlow, hhigh, hfall⟩, -⟩ := h
  have hlog : pulseLog trace = ⟨.idle, completedPulses trace⟩ := by
    rw [← hidle]
    rfl
  rw [pulseLog, List.foldl_append]
  change List.foldl PulseLog.step (pulseLog trace) (pulseEvents env t pin) = _
  rw [hlog]
  simp [pulseEvents, PulseLog.step, hlow, hhigh, hfall]

theorem setState_between (hW : Wired W) {sw : SwitchPtr} (hsw : sw ∈ W.1.switches) {state : Byte}
    {pin : GpioPin} (h : Between W w) (hpin : (w.switches sw).pinFor state = some pin)
    (hok : PulsesSucceed env w.trace.length [pin]) :
    Between W (memsSwitchSetState env sw state w).post := by
  have hlog := pulseLog_pulse h.idle hok
  have htrace : (pulse env pin w).post.trace = w.trace ++ pulseEvents env w.trace.length pin :=
    pulse_emits env pin w
  rw [← htrace] at hlog
  have hsame := pulse_switches env pin w
  have hwire : (pulse env pin w).post.wiring = W := by
    rw [← h.wiring_eq, World.wiring, hsame, pulse_router]
    rfl
  have hpin' : (W.2 sw).pinFor state = some pin := by
    rw [← hpin, ← h.wiring_eq]
    rfl
  rw [memsSwitchSetState_run env hpin, ← hsame]
  refine ⟨(wiring_setState _ sw state).trans hwire, ?_, ?_⟩
  · rw [World.setSwitch_trace, hlog]
  · have hlast : completedPulses (pulse env pin w).post.trace = pin :: completedPulses w.trace := by
      rw [completedPulses, hlog]
    have hstates : ∀ p ∈ (pulse env pin w).post.router.switches,
        ((pulse env pin w).post.switches p).state =
          ((pulse env pin w).post.switches p).lastSide (completedPulses w.trace) := by
      rw [hsame, pulse_router]
      exact h.tracks
    exact tracks_record hW hwire hlast hstates hsw hpin'

/-- **A walk.** The induction is on the steps that are left. -/
theorem routeLoop_between (hW : Wired W) (cmd : Command) (steps : List MemsRouteStep)
    (h : Between W w) (hok : PulsesSucceed env w.trace.length (walkPins w steps)) :
    Between W (Prog.firstSome (memsrouteStep env cmd) steps w).post := by
  induction steps generalizing w with
  | nil => exact h
  | cons step steps ih =>
    cases hx : stepWrite w step with
    | none =>
      obtain ⟨⟨om, hval⟩, hpost⟩ := memsrouteStep_none env cmd hx
      simpa only [Prog.firstSome, Prog.bind_run, hval, Prog.pure_run, hpost] using h
    | some x =>
      obtain ⟨hval, hpost⟩ := memsrouteStep_some env cmd hx
      obtain ⟨pin, hpin, hp⟩ := stepPin_of_stepWrite hx
      have hsw : x.1 ∈ W.1.switches := by
        rw [← h.wiring_eq]
        exact mem_of_findSwitch (stepWrite_eq_some hx).1
      simp only [walkPins, hpin, PulsesSucceed] at hok
      have hv := setState_between hW hsw h hp ⟨hok.1, trivial⟩
      have hwire := memsSwitchSetState_wiring env x.1 x.2 w
      rw [(Prog.firstSome_cons_none w hval steps).2, hpost]
      refine ih hv ?_
      rw [walkPins_congr hwire, (setState_emits env hp).length]
      exact hok.2

theorem memsSet_between (hW : Wired W) (cmd : Command) (h : Between W w)
    (hok : ∀ pin, memsTarget env cmd w = some pin → PulsesSucceed env w.trace.length [pin]) :
    Between W (memsSet env cmd w).post := by
  cases ht : memsTarget env cmd w with
  | none =>
    rw [(memsSet_refused env cmd ht).post_eq]
    exact h
  | some pin =>
    obtain ⟨sw, hf, hpin, -, hpost⟩ := memsSet_run env cmd ht
    have hsw : sw ∈ W.1.switches := by
      rw [← h.wiring_eq]
      exact mem_of_findSwitch hf
    rw [hpost]
    exact setState_between hW hsw h hpin (hok pin ht)

theorem SwitchCommand.between (hW : Wired W) (c : SwitchCommand) (h : Between W w)
    (hok : CommandSucceeds env w c) : Between W (c.run env w).post := by
  cases c with
  | mems cmd => exact memsSet_between hW cmd h hok
  | memsroute cmd =>
    change Between W (memsrouteSet env cmd w).post
    cases hr : selectedRoute env cmd w.router with
    | none =>
      rw [(memsrouteSet_unselected env cmd hr).2]
      exact h
    | some route =>
      rw [(memsrouteSet_eq env cmd hr).2]
      exact routeLoop_between hW cmd route.steps h (hok route hr)

end Commands

/-! ## Runs -/

/-- Runs of switch commands after the setup. -/
def switchRuns (env : Env) : Sys where
  St := World
  Label := SwitchCommand
  start := fun w => w = (setupMemsSwitchesAndRoutes env .boot).post
  step := fun w c w' => w' = (c.run env w).post

section Runs

variable {env : Env} {w w' : World} {ls : List SwitchCommand}

theorem setup_between (env : Env) :
    let w := (setupMemsSwitchesAndRoutes env .boot).post
    Wired w.wiring ∧ Between w.wiring w := by
  obtain ⟨hW, hidle⟩ := setup_idle env
  exact ⟨hW, hidle.wiring_eq, hidle.phase_eq, hidle.tracks⟩

theorem tracks_of_success (hs : (switchRuns env).start w)
    (h : (switchRuns env).ExecWith (fun w c _ => CommandSucceeds env w c) w ls w') :
    Tracks w' := by
  obtain ⟨hW, hbetween⟩ := setup_between env
  have hw : w = (setupMemsSwitchesAndRoutes env .boot).post := hs
  rw [← hw] at hW hbetween
  have hstep : ∀ (v : World) (c : SwitchCommand) (v' : World), Between w.wiring v →
      (switchRuns env).step v c v' → CommandSucceeds env v c → Between w.wiring v' := by
    rintro v c v' hv rfl hok
    exact c.between hW hv hok
  exact (h.keeps hstep hbetween).tracks

/-- **Pulses that fail.** A call records its state after a whole pulse only exactly when the state
has no pin or all three writes succeed; and over every run of commands whose writes succeed, every
switch has the side of its last completed pulse. -/
theorem pulses_recorded_iff (env : Env) :
    (∀ sw state w, RecordsPulse env sw state w ↔
      ((w.switches sw).pinFor state = none ∨ PulseSucceeds env sw state w)) ∧
    ∀ w ls w', (switchRuns env).start w →
      (switchRuns env).ExecWith (fun w c _ => CommandSucceeds env w c) w ls w' → Tracks w' :=
  ⟨recordsPulse_iff env, fun _ _ _ hs h => tracks_of_success hs h⟩

end Runs

/-- An expander that refuses every write, and a request for side A. -/
def deafEnv : Env :=
  { quietEnv with
    jsonObjParse := refuseEmpty fun _ text _ => ⟨1, text, [some (.chars (str "A" ++ [0]))]⟩
    answer := fun _ c => match c with
      | .gpioPinSet _ _ => -5
      | _ => 0 }

def sideRequest : Command :=
  .setOf (str "mems/yj_mm_sm") (str "\x7b\"msg_type\":\"set\",\"value\":\"A\"\x7d")

/-- Side A is recorded without a pulse. -/
theorem side_without_pulse :
    ¬ RecordsPulse deafEnv 6 (chr 'A') (setupMemsSwitchesAndRoutes deafEnv .boot).post ∧
      ∃ w ls w', (switchRuns deafEnv).start w ∧ (switchRuns deafEnv).Exec w ls w' ∧
        ¬ Tracks w' := by
  let w := (setupMemsSwitchesAndRoutes deafEnv .boot).post
  let w' := (memsSet deafEnv sideRequest w).post
  have hpin : (w.switches 6).pinFor (chr 'A') = some ⟨.pcal6416a, 12⟩ := by decide
  have hdeaf : ¬ PulseSucceeds deafEnv 6 (chr 'A') w := by
    rintro ⟨pin, -, hok⟩
    have hrefused : (-5 : Int) = 0 := hok.1.1
    exact absurd hrefused (by decide)
  have hmem : 6 ∈ w'.router.switches := by decide
  have hstate : (w'.switches 6).state = chr 'A' := by decide
  have hside : (w'.switches 6).lastSide (completedPulses w'.trace) = chr 'U' := by decide
  have hnil : (switchRuns deafEnv).Exec w [] w := .nil _
  have hst : (switchRuns deafEnv).step w (.mems sideRequest) w' := rfl
  refine ⟨fun h => ?_, w, _, w', rfl, hnil.snoc hst, ?_⟩
  · rcases (recordsPulse_iff deafEnv 6 (chr 'A') w).mp h with hnone | hok
    · rw [hpin] at hnone
      cases hnone
    · exact hdeaf hok
  · intro htracks
    have hsame := htracks 6 hmem
    rw [hstate, hside] at hsame
    exact absurd hsame (by decide)

end Tib
