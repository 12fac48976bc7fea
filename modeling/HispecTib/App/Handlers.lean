import HispecTib.App.Attenuator
import HispecTib.App.Command
import HispecTib.App.Maiman
import HispecTib.App.MemsSwitching

/-!
# Command handlers and dispatch (`command.c`)

* One definition for each handler, under the source's name. A handler ends with the reply; every
  reply is built by `msgBuilder`.
* `dispatchTable`, `findDispatch`, `dispatchCommand`: the table and the call through it. A function
  pointer is a `DispatchFunc`, the name of a handler. `dispatchCommand` takes what the names run as
  an argument; `DispatchFunc.run` is what they run in the firmware.

The handlers parse `cmd->payload` in place and never look at it again, so the text that the parser
leaves is dropped here.
-/

open CLib

namespace Tib

variable (env : Env)

/-! ## Power -/

def waitLaserBoot : Prog World Unit := kSleep 1000

def powerEnabled : Prog World Bool := do
  let val ← gpioPinGet env powerGpio
  return val = 1

/-- Whether the power was switched on by this call; a failed write is only logged. -/
def enablePower : Prog World Bool := do
  if ← powerEnabled env then return false
  let _ ← gpioPinSet env powerGpio true
  return true

def disablePower : Prog World Bool := do
  if !(← powerEnabled env) then return false
  let _ ← gpioPinSet env powerGpio false
  return true

/-- `if (enable_power()) { wait_laser_boot(); }` of the two laser handlers. -/
def enablePowerAndWait : Prog World Unit := do
  if ← enablePower env then waitLaserBoot

/-! ## Parsing in the handlers -/

/-- `parse_key_pair(cmd->key, name, 15, setting, 15)` on two uninitialised `char[16]`. -/
def keyPair (cmd : Command) : KeyPair 16 16 :=
  parseKeyPair cmd.key.data env.nameBuf 15 env.settingBuf 15

/-- `json_obj_parse(cmd->payload, cmd->payload_len, d, ..)`. -/
def parsePayload (cmd : Command) (d : List JsonDescr) : JsonResult :=
  env.jsonObjParse env.cmdPayload (cmd.payload.data.take cmd.payloadLen) d

/-- The descriptor of a struct whose only field is `value`. -/
def valueDescr (tok : JsonTok) : List JsonDescr := [⟨str "value", tok⟩]

/-! ## MEMS -/

/-- A bounded print at the end of `buf`, refused when it would not fit in `size` bytes. -/
def appendText (size : Nat) (buf text : List Byte) : Option (List Byte) :=
  if text.length ≥ size - buf.length then none else some (buf ++ text)

/-- The loop of `memsroute_get` over the active routes; `first` until one is printed. -/
def appendRoutes (size : Nat) : List MemsRouteKey → Bool → List Byte → Option (List Byte)
  | [], _, buf => some buf
  | key :: keys, first, buf => do
    let buf ← if first then some buf else appendText size buf (str ",")
    let buf ← appendText size buf
      (str "\"" ++ cstr key.inputName ++ str "\":\"" ++ cstr key.outputName ++ str "\"")
    appendRoutes size keys false buf

def memsrouteGet (cmd : Command) : Prog World OutMsg := do
  let w ← Prog.get
  let (nRoutes, keys) :=
    memsRouterActiveRoutes w.switches w.router (fun _ => default) memsRouterMaxRoutes
  let text := do
    let buf ← appendRoutes maxPayloadLen ((List.range nRoutes).map keys) true
      (str "\x7b\"active_routes\":\x7b")
    appendText maxPayloadLen buf (str "\x7d\x7d")
  match text with
  | none => return errorReply cmd "overflow building JSON"
  | some buf => return msgBuilder cmd .respOk buf

/-- The body of the loop of `memsroute_set`: the reply, if the step fails. -/
def memsrouteStep (cmd : Command) (step : MemsRouteStep) : Prog World (Option OutMsg) := do
  let w ← Prog.get
  match memsRouterFindSwitch w.switches w.router step.switchName with
  | none => return some (errorReply cmd "Internal route error")
  | some sw =>
    let rc ← memsSwitchSetState env sw step.state
    if rc ≠ 0 then
      return some (msgBuilder cmd .respError (snprintf maxPayloadLen
        (str "\x7b\"error\":\"Setting switch " ++ cstr step.switchName ++ str " to " ++
          [step.state] ++ str " failed\"\x7d")))
    return none

/-- The descriptors of `struct mems_route_id`. -/
def routeDescr : List JsonDescr := [⟨str "input", .string⟩, ⟨str "output", .string⟩]

/-- The route id that `memsroute_set` decodes. -/
def JsonResult.routeId (r : JsonResult) : MemsRouteId := ⟨r.charsField 0 _, r.charsField 1 _⟩

def memsrouteSet (cmd : Command) : Prog World OutMsg := do
  let r := parsePayload env cmd routeDescr
  if r.rc < 0 then return errorReply cmd "Failed to parse JSON input or output"
  let w ← Prog.get
  match memsRouterGetRoute w.router r.routeId.input.data r.routeId.output.data with
  | none => return errorReply cmd "Invalid Route"
  | some route =>
    match ← Prog.firstSome (memsrouteStep env cmd) route.steps with
    | some reply => return reply
    | none => return msgBuilder cmd .respOk okText

def memsGet (cmd : Command) : Prog World OutMsg := do
  let kp := keyPair env cmd
  if kp.rc ≠ 0 then return errorReply cmd "Failed to parse mems switch name"
  let w ← Prog.get
  match memsRouterFindSwitch w.switches w.router kp.setting.data with
  | none => return errorReply cmd "Invalid switch name"
  | some sw =>
    let state := (memsSwitchGetState (w.switches sw)).2
    return msgBuilder cmd .respOk (snprintf maxPayloadLen
      (str "\x7b\"value\":\"" ++ [state] ++ str "\"\x7d"))

def memsSet (cmd : Command) : Prog World OutMsg := do
  let kp := keyPair env cmd
  if kp.rc ≠ 0 then return errorReply cmd "Failed to parse mems switch name"
  let r := parsePayload env cmd (valueDescr .string)
  if r.rc < 0 then return errorReply cmd "Failed to parse switch state"
  let w ← Prog.get
  match memsRouterFindSwitch w.switches w.router kp.setting.data with
  | none => return errorReply cmd "Invalid switch name"
  | some sw =>
    let state := (r.charsField 0 memsSwitchNameLen).data.headD 0
    if (← memsSwitchSetState env sw state) ≠ 0 then
      return errorReply cmd "Invalid switch state"
    return msgBuilder cmd .respOk okText

/-! ## Lasers -/

def laserSettingGet (cmd : Command) : Prog World OutMsg := do
  let kp := keyPair env cmd
  if kp.rc ≠ 0 then return errorReply cmd "Failed to parse laser/setting"
  let driver : MaimanDriver := ⟨getLaserChannel (kp.name.data.drop 5)⟩
  if driver.nodeId = laserUnknown then return errorReply cmd "Invalid laser"
  match maimanGetRegisterAddress kp.setting.data with
  | none => return errorReply cmd "Invalid laser setting"
  | some addr =>
    enablePowerAndWait env
    let (ok, value) ← maimanReadU16 env driver addr 0
    if !ok then return errorReply cmd "get_driver_setting failed"
    return msgBuilder cmd .respOk (snprintf maxPayloadLen
      (str "\x7b\"" ++ kp.setting.cstr ++ str "\":" ++ decimalInt value.toInt16.toInt ++
        str "\x7d"))

def laserSettingSet (cmd : Command) : Prog World OutMsg := do
  let kp := keyPair env cmd
  if kp.rc ≠ 0 then return errorReply cmd "Failed to parse laser/setting"
  let r := parsePayload env cmd (valueDescr .number)
  if r.rc < 0 then return errorReply cmd "Missing setting value"
  let driver : MaimanDriver := ⟨getLaserChannel (kp.name.data.drop 5)⟩
  if driver.nodeId = laserUnknown then return errorReply cmd "Invalid laser"
  match maimanGetRegisterAddress kp.setting.data with
  | none => return errorReply cmd "Invalid laser setting"
  | some addr =>
    enablePowerAndWait env
    if !(← maimanWriteU16 env driver addr (r.uint16Field 0)) then
      return errorReply cmd "set_driver_setting failed"
    return msgBuilder cmd .respOk okText

/-! ## Attenuators -/

/-- Three coefficients as `%.4f`s with commas. -/
def coeffText (c : Fin 3 → Rat) : List Byte :=
  List.intercalate (str ",") ((List.ofFn c).map fixed4)

/-- `strcasecmp` is nonzero when the strings differ, so each test is true for every setting but
the one it names. -/
def attenSettingGet (cmd : Command) : Prog World OutMsg := do
  let kp := keyPair env cmd
  if kp.rc ≠ 0 then return errorReply cmd "Failed to parse atten/setting"
  let laserId := getLaserChannel (kp.name.data.drop 5)
  if laserId = laserUnknown then return errorReply cmd "Invalid attenuator"
  let w ← Prog.get
  let drv := w.attenuators laserId
  if strcasecmp kp.setting.data (str "coeff") ≠ 0 then
    return msgBuilder cmd .respOk (snprintf maxPayloadLen
      (str "\x7b\"db2volt\":[" ++ coeffText drv.coeffDbToVolt ++ str "],\"volt2db\":[" ++
        coeffText drv.coeffVoltToDb ++ str "]\x7d"))
  else if strcasecmp kp.setting.data (str "value") ≠ 0 ∨
      strcasecmp kp.setting.data (str "valuedb") ≠ 0 then
    let db := attenuatorGet drv false
    let voltage := attenuatorGet drv true
    return msgBuilder cmd .respOk (snprintf maxPayloadLen
      (str "\x7b\"voltage\":" ++ fixed4 voltage ++ str ",\"db\":" ++ fixed4 db ++ str "\x7d"))
  else return errorReply cmd "Invalid setting"

/-- The descriptors of `struct coeffs`. -/
def coeffDescr : List JsonDescr := [⟨str "db2volt", .floats 3⟩, ⟨str "volt2db", .floats 3⟩]

/-- A parsed array as three coefficients. -/
def coeffs (qs : List Rat) : Fin 3 → Rat := fun i => qs.getD i 0

def attenSettingSet (cmd : Command) : Prog World OutMsg := do
  let kp := keyPair env cmd
  if kp.rc ≠ 0 then return errorReply cmd "Failed to parse laser/setting"
  let laserId := getLaserChannel (kp.name.data.drop 5)
  if laserId = laserUnknown then return errorReply cmd "Invalid attenuator"
  if strcasecmp kp.setting.data (str "coeff") ≠ 0 then
    let r := parsePayload env cmd coeffDescr
    if r.rc < 0 ∨ (r.floatsField 0).length ≠ 3 ∨ (r.floatsField 1).length ≠ 3 then
      return errorReply cmd "Improper arguments"
    let w ← Prog.get
    let db := attenuatorGet (w.attenuators laserId) false
    Prog.modify fun w => w.setAttenuator laserId { w.attenuators laserId with
      coeffDbToVolt := coeffs (r.floatsField 0)
      coeffVoltToDb := coeffs (r.floatsField 1) }
    let _ ← attenuatorSet env laserId db false
    return msgBuilder cmd .respOk okText
  else if strcasecmp kp.setting.data (str "value") ≠ 0 then
    let r := parsePayload env cmd (valueDescr .number)
    if r.rc < 0 then return errorReply cmd "Missing setting value"
    let _ ← attenuatorSet env laserId (r.floatField 0) true
    return msgBuilder cmd .respOk okText
  else if strcasecmp kp.setting.data (str "valuedb") ≠ 0 then
    let r := parsePayload env cmd (valueDescr .number)
    if r.rc < 0 then return errorReply cmd "Missing setting value"
    let _ ← attenuatorSet env laserId (r.floatField 0) false
    return msgBuilder cmd .respOk okText
  else return errorReply cmd "Invalid setting"

/-! ## Status, power, sleep -/

/-- The reply of `status_get` and `power_get`. -/
def powerReport (cmd : Command) : Prog World OutMsg := do
  let on ← powerEnabled env
  return msgBuilder cmd .respOk (snprintf maxPayloadLen
    (str "\x7b\"power\":" ++ (if on then str "true" else str "false") ++ str "\x7d"))

def statusGet (cmd : Command) : Prog World OutMsg := powerReport env cmd

def powerGet (cmd : Command) : Prog World OutMsg := powerReport env cmd

/-- The reply of a successful `power_set` has the message type of an error, as in the source. -/
def powerSet (cmd : Command) : Prog World OutMsg := do
  let r := parsePayload env cmd (valueDescr .true_)
  if r.rc < 0 then return errorReply cmd "Missing setting value"
  let _ ← if r.boolField 0 then enablePower env else disablePower env
  return msgBuilder cmd .respError okText

def sleepSet (cmd : Command) : Prog World OutMsg := do
  let r := parsePayload env cmd (valueDescr .true_)
  if r.rc < 0 then return errorReply cmd "Missing setting value"
  let _ ← if r.boolField 0 then disablePower env else pure false
  return msgBuilder cmd .respError okText

/-! ## Dispatch -/

/-- The handlers that the table points to. -/
inductive DispatchFunc where
  | memsrouteGet
  | memsrouteSet
  | memsGet
  | memsSet
  | laserSettingGet
  | laserSettingSet
  | powerGet
  | powerSet
  | attenSettingGet
  | attenSettingSet
  | statusGet
  | sleepSet
deriving DecidableEq

/-- What a handler's name runs. -/
def DispatchFunc.run : DispatchFunc → Command → Prog World OutMsg
  | .memsrouteGet => Tib.memsrouteGet
  | .memsrouteSet => Tib.memsrouteSet env
  | .memsGet => Tib.memsGet env
  | .memsSet => Tib.memsSet env
  | .laserSettingGet => Tib.laserSettingGet env
  | .laserSettingSet => Tib.laserSettingSet env
  | .powerGet => Tib.powerGet env
  | .powerSet => Tib.powerSet env
  | .attenSettingGet => Tib.attenSettingGet env
  | .attenSettingSet => Tib.attenSettingSet env
  | .statusGet => Tib.statusGet env
  | .sleepSet => Tib.sleepSet env

/-- `struct DispatchEntry`; a null handler is `none`. -/
structure DispatchEntry where
  key : List Byte
  getHandler : Option DispatchFunc
  setHandler : Option DispatchFunc

def dispatchTable : List DispatchEntry := [
  ⟨str "memsroute", some .memsrouteGet, some .memsrouteSet⟩,
  ⟨str "mems", some .memsGet, some .memsSet⟩,
  ⟨str "laser", some .laserSettingGet, some .laserSettingSet⟩,
  ⟨str "power", some .powerGet, some .powerSet⟩,
  ⟨str "atten", some .attenSettingGet, some .attenSettingSet⟩,
  ⟨str "status", some .statusGet, none⟩,
  ⟨str "sleep", none, some .sleepSet⟩]

def findDispatch (key : List Byte) : Option DispatchEntry :=
  dispatchTable.find? fun entry => strcmp entry.key key = 0

/-- `dispatch_command`, with `call` for the call through a function pointer. -/
def dispatchCommand (call : DispatchFunc → Command → Prog World OutMsg) (cmd : Command) :
    Prog World OutMsg :=
  match findDispatch cmd.key.data with
  | none => pure (unknownResponse cmd)
  | some entry =>
    match if cmd.msgType = .set then entry.setHandler else entry.getHandler with
    | none => pure (unsupportedResponse cmd)
    | some func => call func cmd

/-- The firmware's dispatch. -/
def dispatch (cmd : Command) : Prog World OutMsg := dispatchCommand (DispatchFunc.run env) cmd

end Tib
