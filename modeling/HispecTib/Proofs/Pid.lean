import HispecTib.Commons.Pid
import Mathlib.Algebra.Order.Field.Basic
import Mathlib.Tactic.Linarith

/-!
# The PID controller over whole runs

* `update_mono`: an update of two controllers that differ in their history only. The one with the
  larger integral and the larger error has the larger output and the larger new integral.
* `pid_monotone`: from a state that updates reach, larger errors have no smaller outputs, for one
  update, and for whole runs if there is no derivative gain.
* `update_saturated`, `outputs_saturated`: an update, and so a whole run, stays in the limits.
  `divisor_pos`: an update divides by a positive `dt` only.
* `cooPidReset_eq_init`: with the integral limits of `coo_pid_init`, a reset gives a new
  controller.
* `pid_saturated`: both hold after any calls.
-/

open Sampled

namespace Tib

section Monotone

/-- The gains are nonnegative and the limits are in order. -/
structure CooPid.Sound (pid : CooPid) : Prop where
  kp_nonneg : 0 ≤ pid.kp
  ki_nonneg : 0 ≤ pid.ki
  kd_nonneg : 0 ≤ pid.kd
  output_le : pid.outputMin ≤ pid.outputMax
  integral_le : pid.integralMin ≤ pid.integralMax

/-- `low` and `high` have the same gains and limits, and the history of `high` pushes its output up:
its integral is no smaller, and its last error no larger, unless the derivative does not count. -/
structure CooPid.Below (low high : CooPid) : Prop where
  gains_eq : (low.kp, low.ki, low.kd) = (high.kp, high.ki, high.kd)
  output_eq : (low.outputMin, low.outputMax) = (high.outputMin, high.outputMax)
  integral_eq : (low.integralMin, low.integralMax) = (high.integralMin, high.integralMax)
  integral_le : low.integral ≤ high.integral
  error_le : high.kd = 0 ∨ high.prevError ≤ low.prevError

theorem CooPid.Below.refl (pid : CooPid) : pid.Below pid :=
  ⟨rfl, rfl, rfl, le_refl _, .inr (le_refl _)⟩

/-- The inputs of two runs at one time: the same `dt`, and no smaller an error in the second. -/
structure PidInput.Below (low high : PidInput) : Prop where
  dt_eq : low.dt = high.dt
  dt_nonneg : 0 ≤ high.dt
  error_le : low.error ≤ high.error

variable {low high pid : CooPid} {u u' : PidInput}

/-- The derivative that an update multiplies by its gain. -/
def derivative (pid : CooPid) (u : PidInput) : Rat :=
  if u.dt > 0 then (u.error - pid.prevError) / u.dt else 0

theorem on_integral (pid : CooPid) (u : PidInput) : (pid.on u).pid.integral =
    saturate pid.integralMin pid.integralMax (pid.integral + u.error * u.dt) := rfl

theorem on_output (pid : CooPid) (u : PidInput) : (pid.on u).output =
    saturate pid.outputMin pid.outputMax
      (pid.kp * u.error + pid.ki * (pid.on u).pid.integral + pid.kd * derivative pid u) := by
  simp only [CooPid.on, cooPidUpdate, derivative, PidInput.error]
  split <;> rfl

theorem integral_mono (hsound : high.Sound) (h : low.Below high) (hu : u'.Below u) :
    (low.on u').pid.integral ≤ (high.on u).pid.integral := by
  obtain ⟨hmin, hmax⟩ := Prod.mk.inj h.integral_eq
  rw [on_integral, on_integral, hmin, hmax, hu.dt_eq]
  refine saturate_mono hsound.integral_le ?_
  have hstep : u'.error * u.dt ≤ u.error * u.dt :=
    mul_le_mul_of_nonneg_right hu.error_le hu.dt_nonneg
  exact add_le_add h.integral_le hstep

theorem derivative_mono (hsound : high.Sound) (h : low.Below high) (hu : u'.Below u) :
    high.kd * derivative low u' ≤ high.kd * derivative high u := by
  rcases h.error_le with hzero | herror
  · rw [hzero, zero_mul, zero_mul]
  · refine mul_le_mul_of_nonneg_left ?_ hsound.kd_nonneg
    unfold derivative
    rw [hu.dt_eq]
    split_ifs with hdt
    · exact div_le_div_of_nonneg_right (sub_le_sub hu.error_le herror) hdt.le
    · exact le_refl _

theorem update_mono (hsound : high.Sound) (h : low.Below high) (hu : u'.Below u) :
    (low.on u').output ≤ (high.on u).output ∧
      (low.on u').pid.integral ≤ (high.on u).pid.integral := by
  have hintegral := integral_mono hsound h hu
  obtain ⟨hkp, hki, hkd⟩ : low.kp = high.kp ∧ low.ki = high.ki ∧ low.kd = high.kd := by
    simpa using h.gains_eq
  obtain ⟨hmin, hmax⟩ := Prod.mk.inj h.output_eq
  refine ⟨?_, hintegral⟩
  rw [on_output, on_output, hmin, hmax, hkp, hki, hkd]
  refine saturate_mono hsound.output_le (add_le_add (add_le_add ?_ ?_) ?_)
  · exact mul_le_mul_of_nonneg_left hu.error_le hsound.kp_nonneg
  · exact mul_le_mul_of_nonneg_left hintegral hsound.ki_nonneg
  · exact derivative_mono hsound h hu

theorem CooPid.Sound.on (h : pid.Sound) (u : PidInput) : (pid.on u).pid.Sound :=
  ⟨h.kp_nonneg, h.ki_nonneg, h.kd_nonneg, h.output_le, h.integral_le⟩

theorem CooPid.Below.on (hsound : high.Sound) (hkd : high.kd = 0) (h : low.Below high)
    (hu : u'.Below u) : (low.on u').pid.Below (high.on u).pid :=
  ⟨h.gains_eq, h.output_eq, h.integral_eq, integral_mono hsound h hu, .inl hkd⟩

/-- Two runs of a controller without a derivative gain, one below the other. -/
structure CooPid.RunsBelow (low high : CooPid) : Prop where
  below : low.Below high
  sound : high.Sound
  kd_eq : high.kd = 0

theorem pidUpdateStep_mono (h : low.RunsBelow high) (hu : u'.Below u) :
    (pidUpdateStep low u').1 ≤ (pidUpdateStep high u).1 ∧
      (pidUpdateStep low u').2.RunsBelow (pidUpdateStep high u).2 :=
  ⟨(update_mono h.sound h.below hu).1, h.below.on h.sound h.kd_eq hu, h.sound.on u, h.kd_eq⟩

/-- **Monotonicity.** Larger errors have no smaller outputs, from any state that updates reach. -/
theorem pid_monotone (kp ki kd outputMin outputMax : Rat) (hkp : 0 ≤ kp) (hki : 0 ≤ ki)
    (hkd : 0 ≤ kd) (hlimits : outputMin ≤ outputMax) (history : List PidInput) :
    let pid := after pidUpdateStep (cooPidInit kp ki kd outputMin outputMax) history
    (∀ u u' : PidInput, u'.Below u → (pid.on u').output ≤ (pid.on u).output ∧
      (pid.on u').pid.integral ≤ (pid.on u).pid.integral) ∧
    (kd = 0 → ∀ us us' : List PidInput, List.Forall₂ PidInput.Below us' us →
      List.Forall₂ (· ≤ ·) (outputs pidUpdateStep pid us') (outputs pidUpdateStep pid us)) := by
  intro pid
  have hpid : pid.Sound ∧ pid.kd = kd := by
    refine after_inv (P := fun p : CooPid => p.Sound ∧ p.kd = kd) (fun p u hp => ?_) history ?_
    · exact ⟨hp.1.on u, hp.2⟩
    · exact ⟨⟨hkp, hki, hkd, hlimits, hlimits⟩, rfl⟩
  refine ⟨fun u u' hu => update_mono hpid.1 (.refl pid) hu, fun hzero us us' hus => ?_⟩
  have hstart : pid.RunsBelow pid := ⟨.refl pid, hpid.1, hpid.2.trans hzero⟩
  exact outputs_rel (fun _ _ _ _ => pidUpdateStep_mono) hstart hus

/-- The inputs of one sample in two runs, a tenth of a second after the last one. -/
def lowSample : PidInput := ⟨0, 1 / 4, 1 / 10⟩
def highSample : PidInput := ⟨1, 0, 1 / 10⟩

theorem lowSample_below : lowSample.Below highSample :=
  ⟨rfl, by norm_num [highSample], by norm_num [PidInput.error, lowSample, highSample]⟩

/-- A controller without a derivative gain, after it has saturated once. -/
theorem pid_monotone_pi :
    let pid := after pidUpdateStep (cooPidInit 2 1 0 (-1) 1) [⟨3, 0, 1⟩]
    ((pid.on lowSample).output ≤ (pid.on highSample).output ∧
      (pid.on lowSample).pid.integral ≤ (pid.on highSample).pid.integral) ∧
    List.Forall₂ (· ≤ ·) (outputs pidUpdateStep pid [lowSample, lowSample])
      (outputs pidUpdateStep pid [highSample, highSample]) := by
  have h := pid_monotone 2 1 0 (-1) 1 (by norm_num) (by norm_num) (by norm_num) (by norm_num)
    [⟨3, 0, 1⟩]
  exact ⟨h.1 _ _ lowSample_below,
    h.2 rfl _ _ (.cons lowSample_below (.cons lowSample_below .nil))⟩

end Monotone

section Calls

variable {pid : CooPid}

/-- The output and the integral are kept in the same limits. -/
structure CooPid.Limited (lo hi : Rat) (pid : CooPid) : Prop where
  output_eq : pid.outputMin = lo ∧ pid.outputMax = hi
  integral_eq : pid.integralMin = lo ∧ pid.integralMax = hi

variable {lo hi : Rat}

theorem CooPid.Limited.step (h : pid.Limited lo hi) (call : PidCall) :
    (pidStep pid call).2.Limited lo hi := by
  cases call <;> exact ⟨h.output_eq, h.integral_eq⟩

theorem divisor_pos (pid : CooPid) (u : PidInput) {d : Rat} (hd : (pid.on u).divisor = some d) :
    d = u.dt ∧ 0 < d := by
  simp only [CooPid.on, cooPidUpdate] at hd
  split_ifs at hd with hdt
  · obtain rfl := Option.some.inj hd
    exact ⟨rfl, hdt⟩

theorem update_saturated (hlimits : lo ≤ hi) (h : pid.Limited lo hi) (u : PidInput) :
    (lo ≤ (pid.on u).output ∧ (pid.on u).output ≤ hi) ∧
      ((pid.on u).pid.integralMin ≤ (pid.on u).pid.integral ∧
        (pid.on u).pid.integral ≤ (pid.on u).pid.integralMax) := by
  obtain ⟨hmin, hmax⟩ := h.output_eq
  have hintegral : pid.integralMin ≤ pid.integralMax := by
    rw [h.integral_eq.1, h.integral_eq.2]
    exact hlimits
  rw [on_output, hmin, hmax]
  exact ⟨⟨le_saturate hlimits _, saturate_le hlimits _⟩, le_saturate hintegral _,
    saturate_le hintegral _⟩

/-- Every value that a run of calls returns is in the limits. -/
theorem outputs_saturated (hlimits : lo ≤ hi) (h : pid.Limited lo hi) (calls : List PidCall) :
    ∀ y ∈ outputs pidStep pid calls, ∀ v, y = some v → lo ≤ v ∧ v ≤ hi := by
  refine outputs_inv (P := CooPid.Limited lo hi) (fun p call hp => ⟨?_, hp.step call⟩) calls h
  cases call with
  | update u =>
    intro v hv
    obtain rfl := Option.some.inj hv
    exact (update_saturated hlimits hp u).1
  | setGains | reset => exact fun v hv => absurd hv.symm (Option.some_ne_none v)

/-- A reset forgets everything but the gains and the limits. -/
theorem cooPidReset_eq_init (h : pid.Limited lo hi) :
    cooPidReset pid = cooPidInit pid.kp pid.ki pid.kd pid.outputMin pid.outputMax := by
  obtain ⟨hmin, hmax⟩ := h.output_eq
  obtain ⟨hmin', hmax'⟩ := h.integral_eq
  rw [cooPidReset, cooPidInit, hmin', hmax', hmin, hmax]

/-- **Saturation and reset.** After any calls, an update stays in the limits and divides only by a
positive `dt`, and a reset leaves a controller that answers all later calls like a new one. -/
theorem pid_saturated (kp ki kd outputMin outputMax : Rat) (hlimits : outputMin ≤ outputMax)
    (calls : List PidCall) :
    let pid := after pidStep (cooPidInit kp ki kd outputMin outputMax) calls
    (∀ u : PidInput, (outputMin ≤ (pid.on u).output ∧ (pid.on u).output ≤ outputMax) ∧
      ((pid.on u).pid.integralMin ≤ (pid.on u).pid.integral ∧
        (pid.on u).pid.integral ≤ (pid.on u).pid.integralMax) ∧
      ∀ d, (pid.on u).divisor = some d → d = u.dt ∧ 0 < d) ∧
    ∀ later : List PidCall, outputs pidStep (cooPidReset pid) later =
      outputs pidStep (cooPidInit pid.kp pid.ki pid.kd pid.outputMin pid.outputMax) later := by
  intro pid
  have hpid : pid.Limited outputMin outputMax :=
    after_inv (P := CooPid.Limited outputMin outputMax) (fun p call hp => hp.step call) calls
      ⟨⟨rfl, rfl⟩, rfl, rfl⟩
  refine ⟨fun u => ?_, fun later => by rw [cooPidReset_eq_init hpid]⟩
  obtain ⟨houtput, hintegral⟩ := update_saturated hlimits hpid u
  exact ⟨houtput, hintegral, fun d hd => divisor_pos pid u hd⟩

/-- Gains are changed after a negative `dt`, then the controller is reset. -/
theorem pid_saturated_reset :
    let pid := after pidStep (cooPidInit 2 1 3 (-1) 1)
      [.update ⟨3, 0, -1⟩, .setGains (-1) 1 1, .update ⟨3, 0, 0⟩]
    (-1 ≤ (pid.on highSample).output ∧ (pid.on highSample).output ≤ 1) ∧
    outputs pidStep (cooPidReset pid) [.update highSample] =
      outputs pidStep (cooPidInit pid.kp pid.ki pid.kd pid.outputMin pid.outputMax)
        [.update highSample] := by
  have h := pid_saturated 2 1 3 (-1) 1 (by norm_num)
    [.update ⟨3, 0, -1⟩, .setGains (-1) 1 1, .update ⟨3, 0, 0⟩]
  exact ⟨(h.1 highSample).1, h.2 [.update highSample]⟩

end Calls

end Tib
