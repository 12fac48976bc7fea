import HispecTib.Base.Cost
import HispecTib.Proofs.Reach

/-!
# How long a command takes

The time that the executor sleeps and the driver calls that it makes, whatever the drivers answer.

* `DispatchFunc.budget`: what each handler takes at most. The laser handlers wait a second for the
  lasers to boot.
* `service_time`: the running firmware reaches no laser. A dispatch sleeps at most 30 ms and makes
  at most 15 calls, and what waits at any moment is served within 90 ms of sleeping.
-/

open CLib

namespace Tib

/-! ## Measures -/

def Event.duration : Event → Nat
  | .sleep ms => ms
  | .call _ _ => 0

def Event.calls : Event → Nat
  | .sleep _ => 0
  | .call _ _ => 1

/-- The milliseconds that were slept, and the calls that were made. -/
def World.slept (w : World) : Nat := (w.trace.map Event.duration).sum

def World.called (w : World) : Nat := (w.trace.map Event.calls).sum

/-- Both bounds. -/
structure Takes {α : Type} (ms calls : Nat) (x : Prog World α) : Prop where
  slept : Adds World.slept ms x
  called : Adds World.called calls x

namespace Takes

variable {α β : Type} {ms ms' calls calls' : Nat} {x : Prog World α}

theorem mono (h : Takes ms calls x) (hms : ms ≤ ms') (hcalls : calls ≤ calls') :
    Takes ms' calls' x := ⟨h.slept.mono hms, h.called.mono hcalls⟩

theorem pure (a : α) : Takes ms calls (Pure.pure a : Prog World α) := ⟨Adds.pure a, Adds.pure a⟩

/-- The rest takes `ms'` and `calls'`. -/
theorem bind {x : Prog World β} {f : β → Prog World α} (hx : Takes ms calls x) (ms' calls' : Nat)
    (hf : ∀ b, Takes ms' calls' (f b)) : Takes (ms + ms') (calls + calls') (x >>= f) :=
  ⟨hx.slept.bind fun b => (hf b).slept, hx.called.bind fun b => (hf b).called⟩

/-- The rest takes nothing. -/
theorem andThen {x : Prog World β} {f : β → Prog World α} (hx : Takes ms calls x)
    (hf : ∀ b, Takes 0 0 (f b)) : Takes ms calls (x >>= f) := hx.bind 0 0 hf

theorem getBind {f : World → Prog World α} (hf : ∀ w, Takes ms calls (f w)) :
    Takes ms calls (Prog.get >>= f) :=
  ⟨Adds.getBind fun w => (hf w).slept, Adds.getBind fun w => (hf w).called⟩

theorem ite {c : Prop} [Decidable c] {x y : Prog World α} (hx : c → Takes ms calls x)
    (hy : ¬ c → Takes ms calls y) : Takes ms calls (if c then x else y) :=
  ⟨Adds.ite (fun hc => (hx hc).slept) fun hc => (hy hc).slept,
    Adds.ite (fun hc => (hx hc).called) fun hc => (hy hc).called⟩

variable (env : Env)

theorem hwCall (c : HwCall) : Takes 0 1 (hwCall env c) := by
  constructor <;> intro w <;>
    simp [Tib.hwCall, World.slept, World.called, Event.duration, Event.calls]

theorem kSleep (n : Nat) : Takes n 0 (kSleep n) := by
  constructor <;> intro w <;>
    simp [Tib.kSleep, World.slept, World.called, Event.duration, Event.calls]

/-- A change of the stored state. -/
theorem modify {f : World → World} (h : ∀ w, (f w).trace = w.trace) :
    Takes ms calls (Prog.modify f) :=
  ⟨Adds.of_keeps fun w => congrArg (fun es => (es.map Event.duration).sum) (h w),
    Adds.of_keeps fun w => congrArg (fun es => (es.map Event.calls).sum) (h w)⟩

/-! ## Parts of the handlers -/

theorem pulse (pin : GpioPin) : Takes 6 3 (pulse env pin) := by
  have hset (v : Bool) : Takes 0 1 (gpioPinSet env pin v) := hwCall env _
  have hsleep : Takes 2 0 (Tib.kSleep memsSwitchPulseDelayMs) := kSleep _
  refine (hset false).bind 6 2 fun _ => hsleep.bind 4 2 fun _ => ?_
  refine (hset true).bind 4 1 fun _ => hsleep.bind 2 1 fun _ => ?_
  exact (hset false).bind 2 0 fun _ => hsleep.andThen fun _ => pure _

theorem setState (sw : SwitchPtr) (state : Byte) : Takes 6 3 (memsSwitchSetState env sw state) := by
  refine getBind fun w => ?_
  split
  · exact pure _
  · refine (pulse env _).andThen fun _ => ?_
    exact (modify fun w => w.setSwitch_trace _ _).andThen fun _ => pure _

theorem powerEnabled : Takes 0 1 (powerEnabled env) :=
  (getBind fun _ => (hwCall env _).andThen fun _ => pure _).andThen fun _ => pure _

theorem enablePower : Takes 0 2 (enablePower env) := by
  refine (powerEnabled env).bind 0 1 fun on => ite (fun _ => pure _) fun _ => ?_
  exact (hwCall env _).andThen fun _ => pure _

theorem disablePower : Takes 0 2 (disablePower env) := by
  refine (powerEnabled env).bind 0 1 fun on => ite (fun _ => pure _) fun _ => ?_
  exact (hwCall env _).andThen fun _ => pure _

theorem enablePowerAndWait : Takes 1000 2 (enablePowerAndWait env) :=
  (enablePower env).bind 1000 0 fun _ => ite (fun _ => kSleep _) fun _ => pure _

theorem routeStep (cmd : Command) (step : MemsRouteStep) :
    Takes 6 3 (memsrouteStep env cmd step) := by
  refine getBind fun w => ?_
  split
  · exact pure _
  · exact (setState env _ _).andThen fun rc => ite (fun _ => pure _) fun _ => pure _

theorem attenuatorSet (i : Nat) (value : Rat) (raw : Bool) :
    Takes 0 3 (attenuatorSet env i value raw) := by
  have hready : Takes 0 1 (deviceIsReady env .dac7578) := (hwCall env _).andThen fun _ => pure _
  refine getBind fun w => (modify fun w => w.setAttenuator_trace _ _).bind 0 3 fun _ => ?_
  refine hready.bind 0 2 fun _ => ite (fun _ => pure _) fun _ => ?_
  refine (hwCall env _).bind 0 1 fun _ => ite (fun _ => pure _) fun _ => ?_
  exact (hwCall env _).andThen fun _ => ite (fun _ => pure _) fun _ => pure _

theorem maimanReadU16 (drv : MaimanDriver) (addr value : UInt16) :
    Takes 0 1 (maimanReadU16 env drv addr value) := by
  have hread : Takes 0 1 (modbusReadHoldingRegs env drv.nodeId addr value) :=
    getBind fun _ => (hwCall env _).andThen fun _ => pure _
  exact hread.andThen fun _ => ite (fun _ => pure _) fun _ => pure _

theorem maimanWriteU16 (drv : MaimanDriver) (addr value : UInt16) :
    Takes 0 1 (maimanWriteU16 env drv addr value) :=
  (hwCall env _).andThen fun _ => ite (fun _ => pure _) fun _ => pure _

end Takes

/-! ## The handlers -/

/-- The milliseconds and the calls that a handler takes at most. -/
def DispatchFunc.budget : DispatchFunc → Nat × Nat
  | .memsrouteSet => (30, 15)
  | .memsSet => (6, 3)
  | .laserSettingGet | .laserSettingSet => (1000, 3)
  | .attenSettingSet => (0, 3)
  | .powerSet | .sleepSet => (0, 2)
  | .powerGet | .statusGet => (0, 1)
  | .memsrouteGet | .memsGet | .attenSettingGet => (0, 0)

section Handlers

variable {env : Env}

/-- **Every handler** keeps to its budget, for every command and whatever the drivers answer. -/
theorem handler_budget (func : DispatchFunc) (cmd : Command) :
    Takes func.budget.1 func.budget.2 (func.run env cmd) := by
  have hreport : Takes 0 1 (powerReport env cmd) :=
    (Takes.powerEnabled env).andThen fun _ => Takes.pure _
  cases func with
  | memsrouteGet =>
    refine Takes.getBind fun w => ?_
    dsimp only
    split <;> exact Takes.pure _
  | memsrouteSet =>
    refine Takes.ite (fun _ => Takes.pure _) fun _ => Takes.getBind fun w => ?_
    split
    · exact Takes.pure _
    · rename_i route _
      have hloop : Takes 30 15 (Prog.firstSome (memsrouteStep env cmd) route.steps) := by
        have hstep (step : MemsRouteStep) := Takes.routeStep env cmd step
        have hlen : route.steps.length ≤ 5 := route.steps_le
        exact ⟨(Adds.firstSome fun step _ => (hstep step).slept).mono (by omega),
          (Adds.firstSome fun step _ => (hstep step).called).mono (by omega)⟩
      refine hloop.andThen fun r => ?_
      split <;> exact Takes.pure _
  | memsGet =>
    refine Takes.ite (fun _ => Takes.pure _) fun _ => Takes.getBind fun w => ?_
    split <;> exact Takes.pure _
  | memsSet =>
    refine Takes.ite (fun _ => Takes.pure _) fun _ => Takes.ite (fun _ => Takes.pure _) fun _ => ?_
    refine Takes.getBind fun w => ?_
    split
    · exact Takes.pure _
    · exact (Takes.setState env _ _).andThen fun _ => Takes.ite (fun _ => Takes.pure _)
        fun _ => Takes.pure _
  | laserSettingGet =>
    refine Takes.ite (fun _ => Takes.pure _) fun _ => Takes.ite (fun _ => Takes.pure _) fun _ => ?_
    split
    · exact Takes.pure _
    · refine (Takes.enablePowerAndWait env).bind 0 1 fun _ => ?_
      exact (Takes.maimanReadU16 env _ _ _).andThen fun _ => Takes.ite (fun _ => Takes.pure _)
        fun _ => Takes.pure _
  | laserSettingSet =>
    refine Takes.ite (fun _ => Takes.pure _) fun _ => Takes.ite (fun _ => Takes.pure _) fun _ => ?_
    refine Takes.ite (fun _ => Takes.pure _) fun _ => ?_
    split
    · exact Takes.pure _
    · refine (Takes.enablePowerAndWait env).bind 0 1 fun _ => ?_
      exact (Takes.maimanWriteU16 env _ _ _).andThen fun _ => Takes.ite (fun _ => Takes.pure _)
        fun _ => Takes.pure _
  | powerGet | statusGet => exact hreport
  | powerSet =>
    refine Takes.ite (fun _ => Takes.pure _) fun _ => ?_
    refine Takes.ite (fun _ => ?_) fun _ => ?_
    · exact (Takes.enablePower env).andThen fun _ => Takes.pure _
    · exact (Takes.disablePower env).andThen fun _ => Takes.pure _
  | sleepSet =>
    refine Takes.ite (fun _ => Takes.pure _) fun _ => Takes.ite (fun _ => ?_) fun _ => Takes.pure _
    exact (Takes.disablePower env).andThen fun _ => Takes.pure _
  | attenSettingGet =>
    refine Takes.ite (fun _ => Takes.pure _) fun _ => Takes.ite (fun _ => Takes.pure _) fun _ => ?_
    refine Takes.getBind fun w => Takes.ite (fun _ => Takes.pure _) fun _ => ?_
    exact Takes.ite (fun _ => Takes.pure _) fun _ => Takes.pure _
  | attenSettingSet =>
    have hset (i : Nat) (value : Rat) (raw : Bool) : Takes 0 3 (do
        let _ ← attenuatorSet env i value raw
        return msgBuilder cmd .respOk okText) :=
      (Takes.attenuatorSet env i value raw).andThen fun _ => Takes.pure _
    refine Takes.ite (fun _ => Takes.pure _) fun _ => Takes.ite (fun _ => Takes.pure _) fun _ => ?_
    refine Takes.ite (fun _ => Takes.ite (fun _ => Takes.pure _) fun _ => ?_) fun _ => ?_
    · refine Takes.getBind fun w => ?_
      exact (Takes.modify fun w => w.setAttenuator_trace _ _).bind 0 3 fun _ => hset _ _ _
    · refine Takes.ite (fun _ => Takes.ite (fun _ => Takes.pure _) fun _ => hset _ _ _) fun _ => ?_
      exact Takes.ite (fun _ => Takes.ite (fun _ => Takes.pure _) fun _ => hset _ _ _)
        fun _ => Takes.pure _

end Handlers

/-! ## The running firmware -/

section Firmware

variable {env : Env} {w : World}

theorem reachedFuncs_budget : ∀ func ∈ reachedFuncs,
    func.budget.1 ≤ 30 ∧ func.budget.2 ≤ 15 := by decide

/-- **One command.** -/
theorem dispatch_budget (env : Env) (cmd : Command) : Takes 30 15 (dispatch env cmd) := by
  rcases dispatch_cases env cmd with ⟨om, h⟩ | ⟨func, hf, -, -, h⟩ <;> rw [h]
  · exact Takes.pure om
  · obtain ⟨hms, hcalls⟩ := reachedFuncs_budget func hf
    exact (handler_budget func cmd).mono hms hcalls

/-- At most three commands wait. -/
theorem waiting_length_le (s : Firmware) : s.waiting.length ≤ 3 := by
  have hin : s.inbound.items.length ≤ 2 := s.inbound.bounded
  rw [Firmware.waiting, List.length_append]
  cases s.executor <;> simp [Executor.held] <;> omega

/-- **Service time.** In every reachable state, whatever the drivers have answered and will answer,
the commands dispatched so far took at most 30 ms of sleeping and 15 calls each; and all commands
that wait are served within 90 ms of sleeping and 45 calls. -/
theorem service_time (env : Env) (w : World) {s : Firmware} (h : (firmware env w).Reachable s) :
    (∃ done, s.accepted = done ++ s.waiting ∧ s.world.slept ≤ w.slept + 30 * done.length ∧
      s.world.called ≤ w.called + 15 * done.length) ∧
    (Prog.mapList (dispatch env) s.waiting s.world).post.slept ≤ s.world.slept + 90 ∧
      (Prog.mapList (dispatch env) s.waiting s.world).post.called ≤ s.world.called + 45 := by
  have hrun (cmds : List Command) (w : World) :
      (Prog.mapList (dispatch env) cmds w).post.slept ≤ w.slept + 30 * cmds.length ∧
        (Prog.mapList (dispatch env) cmds w).post.called ≤ w.called + 15 * cmds.length :=
    ⟨Adds.mapList (fun cmd _ => (dispatch_budget env cmd).slept) w,
      Adds.mapList (fun cmd _ => (dispatch_budget env cmd).called) w⟩
  obtain ⟨done, hx⟩ := exchange_of_reachable h
  refine ⟨⟨done, hx.accepted_eq, ?_⟩, ?_⟩
  · rw [hx.world_eq]
    exact hrun done w
  · obtain ⟨hslept, hcalled⟩ := hrun s.waiting s.world
    have hlen := waiting_length_le s
    exact ⟨by omega, by omega⟩

/-- After a request was received and dispatched. -/
theorem request_service_time : ∃ s : Firmware, s.accepted.length = 1 ∧ ∃ done,
    s.accepted = done ++ s.waiting ∧ s.world.slept ≤ World.boot.slept + 30 * done.length ∧
      s.world.called ≤ World.boot.called + 15 * done.length := by
  obtain ⟨cmd, hcmd⟩ := setPublish_decoded
  obtain ⟨s, hreach, hacc, -⟩ := request_dispatched hcmd .boot
  exact ⟨s, by rw [hacc]; rfl, (service_time setEnv .boot hreach).1⟩

end Firmware

end Tib
