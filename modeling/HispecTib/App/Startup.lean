import HispecTib.App.Devices

/-!
# Startup (`devices.c`, `main.c`)

* `devicesReady`: the readiness checks. What the model has no driver calls for are arguments: the
  return code of `modbus_init_client`, and whether the ADC is ready.
* `startup`: what `main` does with the devices before it brings up the network.
* `World.reset`: a reset of the MCU. The memory is initialised, the hardware stays as it is.
-/

namespace Tib

/-- `setup_modbus_client`, by the return code of `modbus_init_client`. -/
def setupModbusClient (rc : Int) : Bool := rc = 0

section Startup

variable (env : Env) (modbusRc : Int) (adcReady : Bool)

/-- The power pin in `devices_ready`, with `rc` afterwards. -/
def configurePower : Prog World Bool := do
  if !(← deviceIsReady env .gpio0) then return true
  let err ← gpioPinConfigure env powerGpio
  -- `rc` is a `bool`, so a failure makes it `true` and a success `false`.
  return err ≠ 0

def devicesReady : Prog World Bool := do
  let rc ← configurePower env
  -- `setup_modbus_client() != 0` holds when the client is set up.
  let rc := if setupModbusClient modbusRc then false else rc
  let dacReady ← deviceIsReady env .dac7578
  let rc := if !dacReady then false else rc
  let rc := if !adcReady then false else rc
  let gpioReady ← deviceIsReady env .pcal6416a
  return if !gpioReady then false else rc

/-- The result of `devices_ready` is ignored. -/
def startup : Prog World Unit := do
  let _ ← devicesReady env modbusRc adcReady
  setupMemsSwitchesAndRoutes env
  setupAttenuators

end Startup

/-- The world right after a reset. -/
def World.reset (w : World) : World :=
  { World.boot with level := w.level, regs := w.regs, dac := w.dac }

end Tib
