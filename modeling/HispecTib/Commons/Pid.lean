import HispecTib.Base.Sampled
import Mathlib.Algebra.Order.Field.Rat

/-!
# PID controller (`pid.h`, `pid.c`)

The controller in exact arithmetic. Each clamp of the source is `Sampled.saturate`. An update also
says by what it divided.
-/

open Sampled

namespace Tib

/-- `struct coo_pid`. -/
structure CooPid where
  kp : Rat
  ki : Rat
  kd : Rat
  integral : Rat
  prevError : Rat
  outputMin : Rat
  outputMax : Rat
  integralMin : Rat
  integralMax : Rat

def cooPidInit (kp ki kd outputMin outputMax : Rat) : CooPid where
  kp := kp
  ki := ki
  kd := kd
  integral := 0
  prevError := 0
  outputMin := outputMin
  outputMax := outputMax
  integralMin := outputMin
  integralMax := outputMax

def cooPidReset (pid : CooPid) : CooPid := { pid with integral := 0, prevError := 0 }

def cooPidSetGains (pid : CooPid) (kp ki kd : Rat) : CooPid :=
  { pid with kp := kp, ki := ki, kd := kd }

/-- What an update returns and leaves, and the divisor of its derivative, if it has one. -/
structure PidUpdate where
  output : Rat
  pid : CooPid
  divisor : Option Rat

def cooPidUpdate (pid : CooPid) (setpoint measured dt : Rat) : PidUpdate :=
  let error := setpoint - measured
  let pTerm := pid.kp * error
  let integral := saturate pid.integralMin pid.integralMax (pid.integral + error * dt)
  let iTerm := pid.ki * integral
  let derivative := if dt > 0 then ((error - pid.prevError) / dt, some dt) else (0, none)
  let dTerm := pid.kd * derivative.1
  let output := saturate pid.outputMin pid.outputMax (pTerm + iTerm + dTerm)
  ⟨output, { pid with integral := integral, prevError := error }, derivative.2⟩

/-! ## Runs -/

/-- The arguments of `coo_pid_update`. -/
structure PidInput where
  setpoint : Rat
  measured : Rat
  dt : Rat

def PidInput.error (u : PidInput) : Rat := u.setpoint - u.measured

def CooPid.on (pid : CooPid) (u : PidInput) : PidUpdate :=
  cooPidUpdate pid u.setpoint u.measured u.dt

/-- One update, as a step of a sampled system. -/
def pidUpdateStep (pid : CooPid) (u : PidInput) : Rat × CooPid :=
  ((pid.on u).output, (pid.on u).pid)

/-- The calls on a controller that is set up. -/
inductive PidCall where
  | update (u : PidInput)
  | setGains (kp ki kd : Rat)
  | reset

/-- One call; only an update returns something. -/
def pidStep (pid : CooPid) : PidCall → Option Rat × CooPid
  | .update u => (some (pid.on u).output, (pid.on u).pid)
  | .setGains kp ki kd => (none, cooPidSetGains pid kp ki kd)
  | .reset => (none, cooPidReset pid)

end Tib
