import HispecTib.App.Maiman
import HispecTib.Base.Binary32

/-!
# Maiman readings and setpoints (`maiman.h`, `maiman.c`)

The typed part of the laser driver. A `float` is the exact rational that it stands for; every
quotient and every product is rounded to single precision. The readings are at most 6553.5 and the
products below 65536, far from the ends of the range of a `float`.

* `FloatGetter`: the getters that return a `float`, with the value that reports a failed read.
* `Scalable`: a `float` whose product with a divider can be converted to `uint16_t`. The setters
  take one, since C leaves other conversions undefined.
-/

namespace Tib

/-! ## Registers, dividers and masks -/

def regTecTemperatureMeasured : UInt16 := 0x1000
def regPcbTemperatureMeasured : UInt16 := 0x1001
def regTecTemperatureValue : UInt16 := 0x1002
def regCurrentMeasured : UInt16 := 0x1003
def regCurrent : UInt16 := 0x1004
def regVoltageMeasured : UInt16 := 0x1005
def regCurrentMaxLimit : UInt16 := 0x1006
def regCurrentProtectionThreshold : UInt16 := 0x1007
def regCurrentSetCalibration : UInt16 := 0x1008
def regNtcCoefficient : UInt16 := 0x1009
def regTecCurrentMeasured : UInt16 := 0x100A
def regTecVoltage : UInt16 := 0x100B
def regSerialNumber : UInt16 := 0x100C
def regFrequency : UInt16 := 0x100D
def regDuration : UInt16 := 0x100E
def regStateOfDeviceCommand : UInt16 := 0x1010

def dividerTemperature : Nat := 10
def dividerCurrent : Nat := 100
def dividerVoltage : Nat := 100
def dividerDuration : Nat := 1000
def dividerFrequency : Nat := 1000
def dividerNtcCoefficient : Nat := 1000

def operationStateStarted : UInt16 := 0x0001
def currentSetInternal : UInt16 := 0x0002
def enableInternal : UInt16 := 0x0004
def externalNtcInterlockDenied : UInt16 := 0x0008
def interlockDenied : UInt16 := 0x0010

def modbusStartCommandValue : UInt16 := 0x0001
def modbusStopCommandValue : UInt16 := 0x0000

/-- `maiman_init`. -/
def maimanInit (nodeId : Nat) : MaimanDriver := ⟨nodeId⟩

def maimanToSigned (value : UInt16) : Int := value.toInt16.toInt

section Driver

variable (env : Env) (drv : MaimanDriver)

/-! ## Getters -/

/-- A getter of a `float`: an unsigned register over a divider, or a temperature. -/
inductive FloatGetter where
  | scaled (register : UInt16) (divider : Nat)
  | temperature (register : UInt16)

namespace FloatGetter

def register : FloatGetter → UInt16
  | scaled register _ | temperature register => register

/-- The value that `raw` stands for. -/
def reading (raw : UInt16) : FloatGetter → Rat
  | scaled _ divider => Binary32.round (raw.toNat / divider)
  | temperature _ => Binary32.round (maimanToSigned raw / dividerTemperature)

/-- What is returned when the read fails: `-1.0f` or `-273.15f`. -/
def failed : FloatGetter → Rat
  | scaled _ _ => -1
  | temperature _ => Binary32.round (-27315 / 100)

def run (g : FloatGetter) : Prog World Rat := do
  let (ok, raw) ← maimanReadU16 env drv g.register env.raw
  if ok then return g.reading raw
  return g.failed

end FloatGetter

def maimanGetTecTemperatureMeasured : Prog World Rat :=
  (FloatGetter.temperature regTecTemperatureMeasured).run env drv

def maimanGetPcbTemperatureMeasured : Prog World Rat :=
  (FloatGetter.temperature regPcbTemperatureMeasured).run env drv

def maimanGetTecTemperatureValue : Prog World Rat :=
  (FloatGetter.temperature regTecTemperatureValue).run env drv

def maimanGetCurrentMeasured : Prog World Rat :=
  (FloatGetter.scaled regCurrentMeasured dividerCurrent).run env drv

def maimanGetFrequency : Prog World Rat :=
  (FloatGetter.scaled regFrequency dividerFrequency).run env drv

def maimanGetDuration : Prog World Rat :=
  (FloatGetter.scaled regDuration dividerDuration).run env drv

def maimanGetVoltageMeasured : Prog World Rat :=
  (FloatGetter.scaled regVoltageMeasured dividerVoltage).run env drv

def maimanGetCurrentMaxLimit : Prog World Rat :=
  (FloatGetter.scaled regCurrentMaxLimit dividerCurrent).run env drv

def maimanGetCurrentProtectionThreshold : Prog World Rat :=
  (FloatGetter.scaled regCurrentProtectionThreshold dividerCurrent).run env drv

def maimanGetCurrentSetCalibration : Prog World Rat :=
  (FloatGetter.scaled regCurrentSetCalibration dividerCurrent).run env drv

def maimanGetNtcB25100Coefficient : Prog World Rat :=
  (FloatGetter.scaled regNtcCoefficient dividerNtcCoefficient).run env drv

def maimanGetTecCurrentMeasured : Prog World Rat :=
  (FloatGetter.scaled regTecCurrentMeasured dividerCurrent).run env drv

def maimanGetTecVoltage : Prog World Rat :=
  (FloatGetter.scaled regTecVoltage dividerVoltage).run env drv

/-- `*value`; `none` when the read fails, which returns `false` and leaves it alone. -/
def maimanGetCurrent : Prog World (Option Rat) := do
  let (ok, raw) ← maimanReadU16 env drv regCurrent env.raw
  if ok then return some (Binary32.round (raw.toNat / dividerCurrent))
  return none

/-- A register as it is, 0 when the read fails. -/
def getRaw (register : UInt16) : Prog World UInt16 := do
  let (ok, raw) ← maimanReadU16 env drv register env.raw
  if ok then return raw
  return 0

def maimanGetSerialNumber : Prog World UInt16 := getRaw env drv regSerialNumber

def maimanGetRawStatus : Prog World UInt16 := getRaw env drv regStateOfDeviceCommand

def maimanIsBitSet (bitmask : UInt16) : Prog World Bool := do
  let status ← maimanGetRawStatus env drv
  return status &&& bitmask ≠ 0

def maimanIsOperationStarted : Prog World Bool := maimanIsBitSet env drv operationStateStarted

def maimanIsCurrentSetInternal : Prog World Bool := maimanIsBitSet env drv currentSetInternal

def maimanIsEnableInternal : Prog World Bool := maimanIsBitSet env drv enableInternal

def maimanIsExternalNtcDenied : Prog World Bool :=
  maimanIsBitSet env drv externalNtcInterlockDenied

def maimanIsInterlockDenied : Prog World Bool := maimanIsBitSet env drv interlockDenied

/-! ## Setpoints and commands -/

/-- A `float` whose scaled value is in the range of the conversion to `uint16_t`. -/
structure Scalable (divider : Nat) where
  value : Rat
  fits : -1 < Binary32.round (value * divider) ∧ Binary32.round (value * divider) < 65536

/-- `(uint16_t)(value * divider)`: the whole part, toward zero. -/
def Scalable.raw {divider : Nat} (x : Scalable divider) : UInt16 :=
  UInt16.ofNat (Binary32.round (x.value * divider)).floor.toNat

def maimanSetCurrent (current : Scalable dividerCurrent) : Prog World Bool :=
  maimanWriteU16 env drv regCurrent current.raw

def maimanSetFrequency (frequency : Scalable dividerFrequency) : Prog World Bool :=
  maimanWriteU16 env drv regFrequency frequency.raw

def maimanSetDuration (duration : Scalable dividerDuration) : Prog World Bool :=
  maimanWriteU16 env drv regDuration duration.raw

def maimanStartDevice : Prog World Bool :=
  maimanWriteU16 env drv regStateOfDeviceCommand modbusStartCommandValue

def maimanStopDevice : Prog World Bool :=
  maimanWriteU16 env drv regStateOfDeviceCommand modbusStopCommandValue

end Driver

end Tib
