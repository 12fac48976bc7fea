import HispecTib.App.World
import Mathlib.Data.Rat.Floor

/-!
# Attenuators (`attenuator.c`)

The source computes in `double`. The functions `..In fl` compute as it does, operation by operation:
`fl` is what a `double` operation makes of its exact result, so doubles are finite here and `fl` is
any function. The same functions in exact arithmetic are the instances at `id`. The cast to
`uint32_t` truncates, which is the floor of the nonnegative scaled voltage.
-/

namespace Tib

/-- `DAC_RESOLUTION_BITS`. -/
abbrev dacResolutionBits : Nat := 12
/-- `DAC_MAX_CODE`. -/
abbrev dacMaxCode : Nat := (1 <<< dacResolutionBits) - 1
/-- `MAX_VOLTAGE`. -/
def maxVoltage : Rat := 4096 / 1000

def attenuatorInit (drv : Attenuator) (channel : Nat) : Attenuator :=
  { drv with voltage := 0, cfg := ⟨channel, dacResolutionBits, true⟩ }

section Arithmetic

variable (fl : Rat → Rat)

/-- The requested voltage: as given, or by the dB polynomial. -/
def Attenuator.requestedIn (drv : Attenuator) (value : Rat) (raw : Bool) : Rat :=
  if raw then value
  else fl (fl (drv.coeffDbToVolt 0 + fl (fl (drv.coeffDbToVolt 2 * value) * value)) +
    fl (drv.coeffDbToVolt 1 * value))

/-- The clamp to `[0, MAX_VOLTAGE]`, whose upper end is the `double` that the literal denotes. -/
def clampVoltageIn (voltage : Rat) : Rat :=
  if voltage < 0 then 0 else if voltage > fl maxVoltage then fl maxVoltage else voltage

/-- The DAC code of a voltage. -/
def dacCodeIn (voltage : Rat) : Nat :=
  (fl (fl (voltage / fl maxVoltage) * dacMaxCode)).floor.toNat

/-- `attenuator_set` on `attenuators[i]`. -/
def attenuatorSetIn (env : Env) (i : Nat) (value : Rat) (raw : Bool) : Prog World Bool := do
  let w ← Prog.get
  let drv := { w.attenuators i with
    voltage := clampVoltageIn fl ((w.attenuators i).requestedIn fl value raw) }
  Prog.modify fun w => w.setAttenuator i drv
  if !(← deviceIsReady env .dac7578) then return false
  let err ← dacChannelSetup env drv.cfg
  if err ≠ 0 then return false
  let err ← dacWriteValue env drv.cfg.channelId (dacCodeIn fl drv.voltage)
  if err ≠ 0 then return false
  return true

end Arithmetic

/-! In exact arithmetic. -/

def Attenuator.requested (drv : Attenuator) (value : Rat) (raw : Bool) : Rat :=
  drv.requestedIn id value raw

def clampVoltage (voltage : Rat) : Rat := clampVoltageIn id voltage

def dacCode (voltage : Rat) : Nat := dacCodeIn id voltage

def attenuatorSet (env : Env) (i : Nat) (value : Rat) (raw : Bool) : Prog World Bool :=
  attenuatorSetIn id env i value raw

/-- `*value` of `attenuator_get`, in exact arithmetic where it is a polynomial; it always
returns `true`. -/
def attenuatorGet (drv : Attenuator) (raw : Bool) : Rat :=
  if raw then drv.voltage
  else drv.coeffVoltToDb 0 + drv.voltage * drv.voltage * drv.coeffVoltToDb 2 +
    drv.voltage * drv.coeffVoltToDb 1

/-- The polynomial with the coefficients `c`, which both conversions are. -/
def quad (c : Fin 3 → Rat) (x : Rat) : Rat := c 0 + c 1 * x + c 2 * (x * x)

end Tib
