import HispecTib.Base.Machine
import HispecTib.Proofs.Liveness
import HispecTib.Proofs.PowerLatch
import HispecTib.Proofs.Report
import HispecTib.Proofs.Walks

/-!
# The instrument

What the firmware is to those who send it requests: switches that make connections, and a power
supply. `instrument` is a sequential machine over a table of connections; it knows no keys, no JSON,
no pins and no queues.

* `request`: how the firmware reads a command, a set command by its payload. `Answer.render`: how it
  words an answer. The handlers get every accepted command with the empty text for its payload.
* `dispatch_served`: one dispatch is one request of the instrument.
* `firmware_serves`: in every reachable state of the main loop, the published replies are the
  instrument's answers to the accepted commands, in order, and the switches and the power pin are as
  the instrument has them after the commands dispatched so far.
* `redelivery_harmless`: a command that is delivered twice in a row has the effect of one.
-/

open CLib

namespace Tib

/-! ## The machine -/

/-- The two ends of a connection, and the sides of the switches between them, in order. -/
structure Connection where
  input : List Byte
  output : List Byte
  sides : List (SwitchPtr × Byte)

structure Instrument where
  power : Bool
  side : SwitchPtr → Byte

inductive Request where
  | connections
  | connect (input output : List Byte)
  | power
  | setPower (on : Bool)
  | wake
  | reject (text : String)

inductive Answer where
  | connections (ends : List (List Byte × List Byte))
  | power (on : Bool)
  | connected
  | powered
  | refused (text : String)

namespace Connection

def Made (c : Connection) (side : SwitchPtr → Byte) : Prop := ∀ x ∈ c.sides, side x.1 = x.2

instance (c : Connection) (side : SwitchPtr → Byte) : Decidable (c.Made side) :=
  inferInstanceAs (Decidable (∀ x ∈ c.sides, side x.1 = x.2))

def Joins (c : Connection) (input output : List Byte) : Prop := c.input = input ∧ c.output = output

instance (c : Connection) (input output : List Byte) : Decidable (c.Joins input output) :=
  inferInstanceAs (Decidable (_ ∧ _))

end Connection

/-- The service: every switch and the supply stay as they were last put. -/
def instrument (table : List Connection) : Machine Instrument Request Answer where
  step i
    | .connections =>
      (i, .connections ((table.filter (·.Made i.side)).map fun c => (c.input, c.output)))
    | .connect input output =>
      match table.find? (·.Joins input output) with
      | none => (i, .refused "Invalid Route")
      | some c => ({ i with side := writes c.sides i.side }, .connected)
    | .power => (i, .power i.power)
    | .setPower on => ({ i with power := on }, .powered)
    | .wake => (i, .powered)
    | .reject text => (i, .refused text)

theorem instrument_repeatable (table : List Connection) : (instrument table).Repeatable := by
  intro i r
  cases r with
  | connect input output =>
    simp only [instrument]
    cases table.find? (·.Joins input output) with
    | none => rfl
    | some c => simp only [writes_again]
  | _ => rfl

/-! ## Words -/

section Words

variable (env : Env) (cmd : Command)

/-- How the firmware reads a set command with the key `word`. -/
def setRequest (word : List Byte) : Request :=
  if word = str "memsroute" then
    let r := parsePayload env cmd routeDescr
    if r.rc < 0 then .reject "Failed to parse JSON input or output"
    else .connect r.routeId.input.cstr r.routeId.output.cstr
  else if word = str "power" then
    match powerTarget env cmd with
    | none => .reject "Missing setting value"
    | some on => .setPower on
  else if word = str "sleep" then
    match powerTarget env cmd with
    | none => .reject "Missing setting value"
    | some on => if on then .setPower false else .wake
  else if word = str "mems" then .reject "Failed to parse mems switch name"
  else if word = str "laser" ∨ word = str "atten" then .reject "Failed to parse laser/setting"
  else if word = str "status" then .reject "Unsupported operation"
  else .reject "Unknown request"

/-- How it reads another command with that key. -/
def getRequest (word : List Byte) : Request :=
  if word = str "memsroute" then .connections
  else if word = str "power" ∨ word = str "status" then .power
  else if word = str "mems" then .reject "Failed to parse mems switch name"
  else if word = str "laser" then .reject "Failed to parse laser/setting"
  else if word = str "atten" then .reject "Failed to parse atten/setting"
  else if word = str "sleep" then .reject "Unsupported operation"
  else .reject "Unknown request"

def request : Request :=
  if cmd.msgType = .set then setRequest env cmd cmd.key.cstr else getRequest cmd.key.cstr

/-- Under a parser that refuses the empty text, an accepted set command is rejected. -/
theorem request_refused {env : Env} {cmd : Command} (h : RefusesEmpty env)
    (hcmd : ReadsEmpty env cmd) (hty : cmd.msgType = .set) :
    ∃ text, request env cmd = .reject text := by
  have hroute : (parsePayload env cmd routeDescr).rc < 0 := by
    rw [hcmd]
    exact h _
  rw [request, if_pos hty, setRequest, if_pos hroute, powerTarget_refused h hcmd]
  split_ifs <;> exact ⟨_, rfl⟩

theorem getRequest_keeps (table : List Connection) (i : Instrument) (word : List Byte) :
    ((instrument table).step i (getRequest word)).1 = i := by
  unfold getRequest
  split_ifs <;> rfl

/-- So no accepted command changes the instrument. -/
theorem request_keeps {env : Env} {cmd : Command} (h : RefusesEmpty env)
    (hcmd : ReadsEmpty env cmd) (table : List Connection) (i : Instrument) :
    ((instrument table).step i (request env cmd)).1 = i := by
  by_cases hty : cmd.msgType = .set
  · obtain ⟨text, hreject⟩ := request_refused h hcmd hty
    rw [hreject]
    rfl
  · rw [request, if_neg hty]
    exact getRequest_keeps table i _

/-- The reply to a command. -/
def Answer.render : Answer → OutMsg
  | .connections ends => msgBuilder cmd .respOk (reportText (ends.map fun e => ⟨e.1, e.2⟩))
  | .power on => powerReply cmd on
  | .connected => msgBuilder cmd .respOk okText
  | .powered => msgBuilder cmd .respError okText
  | .refused text => errorReply cmd text

end Words

/-! ## The world as an instrument -/

section Refinement

variable {env : Env} {cmd : Command} {w w' : World} {table : List Connection}

def World.instrument (w : World) : Instrument := ⟨w.level powerGpio, w.states⟩

/-- A route as a connection, with the switches that its steps name. -/
def World.connection (w : World) (route : MemsRoute) : Connection where
  input := cstr route.key.inputName
  output := cstr route.key.outputName
  sides := walkWrites w route.steps

/-- The table is installed, and its report fits; no switch is wired to the power pin. -/
structure Installed (table : List Connection) (w : World) : Prop where
  table_eq : w.router.routes.map w.connection = table
  routesOk : RoutesOk w
  exclusive : Exclusive w
  pinFree : PowerPinFree w

/-- The world shows the state of the instrument. -/
def Shows (table : List Connection) (w : World) (i : Instrument) : Prop :=
  Installed table w ∧ w.instrument = i

theorem Installed.congr (h : Installed table w) (hwire : w'.wiring = w.wiring)
    (hpin : PowerPinFree w') : Installed table w' := by
  have hr : w'.router = w.router := congrArg Prod.fst hwire
  have hconn : w'.connection = w.connection := by
    funext route
    simp only [World.connection, walkWrites_congr hwire]
  exact ⟨by rw [hr, hconn, h.table_eq], h.routesOk.congr hwire, h.exclusive.congr hwire, hpin⟩

/-- A route matches when its connection is made. -/
theorem routeMatches_iff_made (hok : RoutesOk w) {route : MemsRoute}
    (hroute : route ∈ w.router.routes) :
    routeMatches w.switches w.router route = true ↔ (w.connection route).Made w.states := by
  constructor
  · intro h x hx
    obtain ⟨step, hstep, hw⟩ := mem_walkWrites hx
    obtain ⟨hf, hs, -⟩ := stepWrite_eq_some hw
    obtain ⟨p, hp, hstate⟩ := routeMatches_step h hstep
    obtain rfl : p = x.1 := Option.some.inj (hp.symm.trans hf)
    exact hstate.trans hs
  · intro h
    refine List.all_eq_true.mpr fun step hstep => ?_
    obtain ⟨x, hx, hw⟩ := walkWrites_all (hok.resolves hroute).stepWrite_ne hstep
    obtain ⟨hf, hs, -⟩ := stepWrite_eq_some hw
    have hstate : (w.switches x.1).state = x.2 := h x hx
    rw [memsRouterFindSwitch_eq, hf]
    simp [hstate, hs]

/-- The names of an exclusive table are compared whole. -/
theorem Exclusive.sameName_iff (h : Exclusive w) {route : MemsRoute}
    (hroute : route ∈ w.router.routes) (name : List Byte) :
    (sameName route.key.inputName name = true ↔ cstr route.key.inputName = cstr name) ∧
      (sameName route.key.outputName name = true ↔ cstr route.key.outputName = cstr name) := by
  have hlen := h.entry_le route hroute
  have hiff {a : List Byte} (ha : (cstr a).length < memsSwitchNameLen) :
      sameName a name = true ↔ cstr a = cstr name := by
    rw [sameName, decide_eq_true_iff, strncmp_eq_zero]
    constructor
    · exact (take_eq_take_iff ha).mp
    · intro heq
      rw [heq]
  have hmax : memsSwitchNameLen = 24 := rfl
  simp only [entryText, List.length_append] at hlen
  exact ⟨hiff (by omega), hiff (by omega)⟩

theorem Installed.getRoute (h : Installed table w) (input output : List Byte) :
    (memsRouterGetRoute w.router input output).map w.connection =
      table.find? (·.Joins (cstr input) (cstr output)) := by
  rw [← h.table_eq, List.find?_map, memsRouterGetRoute]
  congr 1
  refine List.find?_congr fun route hroute => ?_
  have hin := (h.exclusive.sameName_iff hroute input).1
  have hout := (h.exclusive.sameName_iff hroute output).2
  rw [Bool.eq_iff_iff, Bool.and_eq_true, hin, hout]
  exact decide_eq_true_iff.symm

/-! ## One command -/

/-- The run answers the request, and shows the instrument after it. -/
def Serves (table : List Connection) (cmd : Command) (i : Instrument) (r : Request)
    (out : Run World OutMsg) : Prop :=
  out.val = ((instrument table).step i r).2.render cmd ∧
    Shows table out.post ((instrument table).step i r).1

theorem serves_reject (h : Installed table w) (text : String) :
    Serves table cmd w.instrument (.reject text)
      ((pure (errorReply cmd text) : Prog World OutMsg) w) :=
  ⟨rfl, h, rfl⟩

theorem serves_connections (h : Installed table w) :
    Serves table cmd w.instrument .connections (memsrouteGet cmd w) := by
  have hkeys : (table.filter (·.Made w.states)).map (fun c => (c.input, c.output)) =
      w.activeRoutes.map fun r => (cstr r.key.inputName, cstr r.key.outputName) := by
    rw [← h.table_eq, List.filter_map, List.map_map, World.activeRoutes]
    refine congrArg _ (List.filter_congr fun route hroute => ?_)
    rw [Bool.eq_iff_iff, routeMatches_iff_made h.routesOk hroute]
    exact decide_eq_true_iff
  have hpost : (memsrouteGet cmd w).post = w := by
    have hkeeps : Keeps id (memsrouteGet cmd) := by
      refine Keeps.bind Keeps.get fun w => ?_
      dsimp only
      split <;> exact Keeps.pure _
    exact hkeeps w
  refine ⟨?_, hpost.symm ▸ ⟨h, rfl⟩⟩
  have hends : reportText (w.activeRoutes.map (·.key)) = reportText
      ((w.activeRoutes.map fun r => (cstr r.key.inputName, cstr r.key.outputName)).map
        fun e => ⟨e.1, e.2⟩) := by
    simp only [reportText, entriesText, List.map_map]
    refine congrArg (fun ts => _ ++ List.intercalate _ ts ++ _) (List.map_congr_left fun r _ => ?_)
    simp [entryText, cstr_cstr]
  rw [h.exclusive.report, hends]
  simp only [instrument, Answer.render, World.instrument, hkeys]

/-- A call that is not for the supply leaves the power pin; one for the supply, the switches. -/
theorem call_apart {p : Part} {f : DispatchFunc} (h : PowerPinFree w)
    (hne : (HandlerCall.mk f cmd).part env ≠ p) :
    (f.run env cmd w).post.part p = w.part p :=
  (apart_keeps hne w ⟨h, rfl⟩).2

theorem serves_connect (h : Installed table w)
    (hrc : ¬ (parsePayload env cmd routeDescr).rc < 0) :
    let id := (parsePayload env cmd routeDescr).routeId
    Serves table cmd w.instrument (.connect id.input.cstr id.output.cstr)
      (memsrouteSet env cmd w) := by
  intro id
  have hfind := h.getRoute id.input.data id.output.data
  have hselected : selectedRoute env cmd w.router =
      memsRouterGetRoute w.router id.input.data id.output.data := if_neg hrc
  unfold Serves
  simp only [instrument, Buf.cstr, ← hfind]
  cases hroute : memsRouterGetRoute w.router id.input.data id.output.data with
  | none =>
    have hreply : memsrouteSet env cmd w = ⟨errorReply cmd "Invalid Route", w, []⟩ := by
      simp only [memsrouteSet, if_neg hrc, Prog.bind_run, Prog.get_run]
      rw [hroute]
      rfl
    rw [hreply]
    exact ⟨rfl, h, rfl⟩
  | some route =>
    rw [hroute] at hselected
    obtain ⟨hval, hpost⟩ := memsrouteSet_eq env cmd hselected
    have hwalk := memsrouteSet_walk env cmd hselected
    have hmem := mem_of_selectedRoute env cmd hselected
    have hnone := (routeLoop_run env cmd route.steps (h.routesOk.resolves hmem)).1
    rw [hnone] at hval
    have hlevel : (memsrouteSet env cmd w).post.part .supply = w.part .supply :=
      call_apart (f := .memsrouteSet) h.pinFree (by simp [HandlerCall.part])
    refine ⟨hval, h.congr hwalk.wiring ?_, ?_⟩
    · exact @powerPinFree_preserved env ⟨.memsrouteSet, cmd⟩ w h.pinFree
    · rw [World.instrument, (part_supply_iff.mp hlevel).1, hwalk.states]
      rfl

/-- After a call for the supply, the switches are as they were. -/
theorem shows_supply {f : DispatchFunc} (h : Installed table w)
    (hpart : (HandlerCall.mk f cmd).part env = .supply) {on : Bool}
    (hlevel : (f.run env cmd w).post.level powerGpio = on) :
    Shows table (f.run env cmd w).post { w.instrument with power := on } := by
  have hswitches : (f.run env cmd w).post.part .switches = w.part .switches :=
    call_apart h.pinFree (by simp [hpart])
  obtain ⟨hrouter, hsw⟩ := part_switches_iff.mp hswitches
  have hwire : (f.run env cmd w).post.wiring = w.wiring := by
    rw [World.wiring, hrouter, hsw, World.wiring]
  have hstates : (f.run env cmd w).post.states = w.states := by
    unfold World.states
    rw [hsw]
  refine ⟨h.congr hwire (powerPinFree_preserved ⟨f, cmd⟩ w h.pinFree), ?_⟩
  rw [World.instrument, hlevel, hstates]
  rfl

theorem serves_power (hpin : PowerPinWorks env) (h : Installed table w) {f : DispatchFunc}
    (hf : f = .powerGet ∨ f = .statusGet) :
    Serves table cmd w.instrument .power (f.run env cmd w) := by
  have hlevel : (powerReport env cmd w).post.level powerGpio = w.level powerGpio :=
    congrFun powerEnabled_level _
  have hval : (powerReport env cmd w).val = powerReply cmd (w.level powerGpio) :=
    powerReport_val hpin w
  rcases hf with rfl | rfl
  · exact ⟨hval, shows_supply (f := .powerGet) h rfl hlevel⟩
  · exact ⟨hval, shows_supply (f := .statusGet) h rfl hlevel⟩

/-- A request for a power state sets it, with the type of an error in the reply. -/
theorem powerSet_runs (hpin : PowerPinWorks env) {on : Bool} (ht : powerTarget env cmd = some on) :
    (powerSet env cmd w).val = Answer.powered.render cmd ∧
      (powerSet env cmd w).post.level powerGpio = on := by
  unfold powerTarget at ht
  dsimp only at ht
  split_ifs at ht with hrc
  simp only [powerSet, if_neg hrc, Option.some.inj ht]
  cases on with
  | true => exact ⟨rfl, enablePower_level hpin w⟩
  | false => exact ⟨rfl, disablePower_level hpin w⟩

theorem sleepSet_runs (hpin : PowerPinWorks env) {on : Bool} (ht : powerTarget env cmd = some on) :
    (sleepSet env cmd w).val = Answer.powered.render cmd ∧
      (sleepSet env cmd w).post.level powerGpio = if on then false else w.level powerGpio := by
  unfold powerTarget at ht
  dsimp only at ht
  split_ifs at ht with hrc
  simp only [sleepSet, if_neg hrc, Option.some.inj ht]
  cases on with
  | true => exact ⟨rfl, disablePower_level hpin w⟩
  | false => exact ⟨rfl, rfl⟩

/-- A request that names no power state is refused. -/
theorem setPower_refused (ht : powerTarget env cmd = none) :
    powerSet env cmd = pure (errorReply cmd "Missing setting value") ∧
      sleepSet env cmd = pure (errorReply cmd "Missing setting value") := by
  unfold powerTarget at ht
  dsimp only at ht
  split_ifs at ht with hrc
  exact ⟨if_pos hrc, if_pos hrc⟩

/-- The words of the handlers that refuse every key that reaches them. -/
theorem refusals (env : Env) (cmd : Command) (h : chr '/' ∉ cmd.key.cstr) :
    (memsGet env cmd = pure (errorReply cmd "Failed to parse mems switch name") ∧
      memsSet env cmd = pure (errorReply cmd "Failed to parse mems switch name")) ∧
    (laserSettingGet env cmd = pure (errorReply cmd "Failed to parse laser/setting") ∧
      laserSettingSet env cmd = pure (errorReply cmd "Failed to parse laser/setting")) ∧
    attenSettingGet env cmd = pure (errorReply cmd "Failed to parse atten/setting") ∧
      attenSettingSet env cmd = pure (errorReply cmd "Failed to parse laser/setting") := by
  have hrc := keyPair_noSlash env h
  exact ⟨⟨if_pos hrc, if_pos hrc⟩, ⟨if_pos hrc, if_pos hrc⟩, if_pos hrc, if_pos hrc⟩

def tableWords : List (List Byte) :=
  [str "memsroute", str "mems", str "laser", str "power", str "atten", str "status", str "sleep"]

theorem tableWords_eq : dispatchTable.map (fun e => cstr e.key) = tableWords := by decide

theorem noSlash_of_tableWords (h : cmd.key.cstr ∈ tableWords) : chr '/' ∉ cmd.key.cstr := by
  rw [← tableWords_eq] at h
  obtain ⟨e, he, hkey⟩ := List.mem_map.mp h
  exact hkey ▸ dispatchTable_no_slash e he

theorem dispatch_unknown (h : cmd.key.cstr ∉ tableWords) :
    dispatch env cmd = pure (errorReply cmd "Unknown request") := by
  refine dispatchCommand_of_none ?_ _
  cases hfind : findDispatch cmd.key.data with
  | none => rfl
  | some e =>
    obtain ⟨hmem, hkey⟩ := findDispatch_eq_some hfind
    have hkey' : cstr e.key = cmd.key.cstr := hkey
    refine absurd ?_ h
    rw [← hkey', ← tableWords_eq]
    exact List.mem_map_of_mem hmem

/-- **Requests that set something.** -/
theorem set_serves (hpin : PowerPinWorks env) (h : Installed table w) (hty : cmd.msgType = .set) :
    Serves table cmd w.instrument (setRequest env cmd cmd.key.cstr) (dispatch env cmd w) := by
  by_cases hword : cmd.key.cstr ∈ tableWords
  · obtain ⟨⟨-, hmems⟩, ⟨-, hlaser⟩, -, hatten⟩ :=
      refusals env cmd (noSlash_of_tableWords hword)
    simp only [tableWords, List.mem_cons, List.not_mem_nil, or_false] at hword
    rcases hword with hkey | hkey | hkey | hkey | hkey | hkey | hkey <;>
      rw [dispatch_of_word hkey rfl, callSelected, if_pos hty, hkey]
    · have hread : setRequest env cmd (str "memsroute") =
          if (parsePayload env cmd routeDescr).rc < 0 then
            .reject "Failed to parse JSON input or output"
          else .connect (parsePayload env cmd routeDescr).routeId.input.cstr
            (parsePayload env cmd routeDescr).routeId.output.cstr := rfl
      change Serves table cmd _ _ (memsrouteSet env cmd w)
      rw [hread]
      split_ifs with hrc
      · have hrun : memsrouteSet env cmd =
            pure (errorReply cmd "Failed to parse JSON input or output") := if_pos hrc
        rw [hrun]
        exact serves_reject h _
      · exact serves_connect h hrc
    · change Serves table cmd _ (.reject _) (memsSet env cmd w)
      rw [hmems]
      exact serves_reject h _
    · change Serves table cmd _ (.reject _) (laserSettingSet env cmd w)
      rw [hlaser]
      exact serves_reject h _
    · change Serves table cmd _ (match powerTarget env cmd with
        | none => .reject "Missing setting value"
        | some on => .setPower on) (powerSet env cmd w)
      cases ht : powerTarget env cmd with
      | none =>
        rw [(setPower_refused ht).1]
        exact serves_reject h _
      | some on =>
        obtain ⟨hval, hlevel⟩ := powerSet_runs hpin (w := w) ht
        exact ⟨hval, shows_supply (f := .powerSet) h rfl hlevel⟩
    · change Serves table cmd _ (.reject _) (attenSettingSet env cmd w)
      rw [hatten]
      exact serves_reject h _
    · exact serves_reject h _
    · change Serves table cmd _ (match powerTarget env cmd with
        | none => .reject "Missing setting value"
        | some on => if on then .setPower false else .wake) (sleepSet env cmd w)
      cases ht : powerTarget env cmd with
      | none =>
        rw [(setPower_refused ht).2]
        exact serves_reject h _
      | some on =>
        obtain ⟨hval, hlevel⟩ := sleepSet_runs hpin (w := w) ht
        have hshows := shows_supply (f := .sleepSet) h rfl hlevel
        cases on <;> exact ⟨hval, hshows⟩
  · have hread : setRequest env cmd cmd.key.cstr = .reject "Unknown request" := by
      simp only [tableWords, List.mem_cons, List.not_mem_nil, or_false, not_or] at hword
      obtain ⟨h₁, h₂, h₃, h₄, h₅, h₆, h₇⟩ := hword
      simp only [setRequest]
      rw [if_neg h₁, if_neg h₄, if_neg h₇, if_neg h₂, if_neg (not_or.mpr ⟨h₃, h₅⟩), if_neg h₆]
    rw [hread, dispatch_unknown hword]
    exact serves_reject h _

/-- **Requests that read something.** -/
theorem get_serves (hpin : PowerPinWorks env) (h : Installed table w) (hty : cmd.msgType ≠ .set) :
    Serves table cmd w.instrument (getRequest cmd.key.cstr) (dispatch env cmd w) := by
  by_cases hword : cmd.key.cstr ∈ tableWords
  · obtain ⟨⟨hmems, -⟩, ⟨hlaser, -⟩, hatten, -⟩ :=
      refusals env cmd (noSlash_of_tableWords hword)
    simp only [tableWords, List.mem_cons, List.not_mem_nil, or_false] at hword
    rcases hword with hkey | hkey | hkey | hkey | hkey | hkey | hkey <;>
      rw [dispatch_of_word hkey rfl, callSelected, if_neg hty, hkey]
    · exact serves_connections h
    · change Serves table cmd _ (.reject _) (memsGet env cmd w)
      rw [hmems]
      exact serves_reject h _
    · change Serves table cmd _ (.reject _) (laserSettingGet env cmd w)
      rw [hlaser]
      exact serves_reject h _
    · exact serves_power (f := .powerGet) hpin h (Or.inl rfl)
    · change Serves table cmd _ (.reject _) (attenSettingGet env cmd w)
      rw [hatten]
      exact serves_reject h _
    · exact serves_power (f := .statusGet) hpin h (Or.inr rfl)
    · exact serves_reject h _
  · have hread : getRequest cmd.key.cstr = .reject "Unknown request" := by
      simp only [tableWords, List.mem_cons, List.not_mem_nil, or_false, not_or] at hword
      obtain ⟨h₁, h₂, h₃, h₄, h₅, h₆, h₇⟩ := hword
      rw [getRequest, if_neg h₁, if_neg (not_or.mpr ⟨h₄, h₆⟩), if_neg h₂, if_neg h₃, if_neg h₅,
        if_neg h₇]
    rw [hread, dispatch_unknown hword]
    exact serves_reject h _

/-- **One command** is one request of the instrument. -/
theorem dispatch_served (hpin : PowerPinWorks env) (table : List Connection) :
    (instrument table).ServedBy (Shows table) (request env) Answer.render (dispatch env) := by
  rintro cmd w i ⟨h, rfl⟩
  by_cases hty : cmd.msgType = .set
  · rw [request, if_pos hty]
    exact set_serves hpin h hty
  · rw [request, if_neg hty]
    exact get_serves hpin h hty

end Refinement

/-! ## The firmware -/

section Firmware

variable {env : Env} {w : World} {table : List Connection}

/-- Setup installs a table. -/
theorem setup_installed (env : Env) :
    let w := (setupMemsSwitchesAndRoutes env .boot).post
    Installed (w.router.routes.map w.connection) w :=
  ⟨rfl, setup_routesOk env, setup_exclusive env rfl, setup_powerPinFree env⟩

/-- The replies that the instrument gives to commands. -/
def serviceReplies (env : Env) (table : List Connection) (i : Instrument) (cmds : List Command) :
    List OutMsg :=
  List.zipWith Answer.render cmds ((instrument table).run (cmds.map (request env)) i).1

/-- What is published is part of what was put. -/
theorem published_answers {b : MainLoop} (h : (firmware env w).Reachable b.fw) :
    b.published.filterMap fromExecutor <+: b.fw.answers env w := by
  refine List.IsPrefix.trans ?_ (sent_answers h)
  refine List.IsPrefix.filterMap fromExecutor ?_
  exact (List.take_prefix _ _).trans (List.prefix_append _ _)

/-- The published replies are answers of the instrument. -/
theorem published_served (hpin : PowerPinWorks env) (hw : Installed table w) {b : MainLoop}
    (h : (firmware env w).Reachable b.fw) :
    b.published.filterMap fromExecutor <+:
      serviceReplies env table w.instrument b.fw.accepted := by
  have hrun := (dispatch_served hpin table).mapList b.fw.accepted ⟨hw, rfl⟩
  rw [serviceReplies, ← hrun.1]
  exact published_answers h

/-- After the commands dispatched so far, the replies and the world are those of the instrument. -/
theorem exchange_served (hpin : PowerPinWorks env) (hw : Installed table w) {done : List Command}
    {s : Firmware} (hx : Exchange env w done s) :
    s.replies = serviceReplies env table w.instrument done ∧
      s.world.instrument =
        ((instrument table).run (done.map (request env)) w.instrument).2 := by
  have hrun := (dispatch_served hpin table).mapList done ⟨hw, rfl⟩
  rw [hx.replies_eq, hx.world_eq]
  exact ⟨hrun.1, hrun.2.2⟩

/-- Under a parser that refuses the empty text, what has been accepted changes nothing. -/
theorem instrument_unchanged {s : Firmware} (h : (firmware env w).Reachable s)
    (hrefuses : RefusesEmpty env) {done : List Command} (hdone : s.accepted = done ++ s.waiting)
    (i : Instrument) : ((instrument table).run (done.map (request env)) i).2 = i := by
  refine Machine.run_keeps _ fun r hr => ?_
  obtain ⟨cmd, hcmd, rfl⟩ := List.mem_map.mp hr
  refine request_keeps hrefuses (accepted_readsEmpty h cmd ?_) table i
  rw [hdone]
  exact List.mem_append_left _ hcmd

/-- The firmware is serving as the instrument does from its state `i` on: the published replies are
the first of those to the accepted commands, and the world shows the instrument as it is after the
commands that have been dispatched. The requests are read from the empty text: with a parser that
refuses it, each set request is rejected and the instrument stays as it was. -/
structure Serving (env : Env) (table : List Connection) (i : Instrument) (b : MainLoop) : Prop where
  published : b.published.filterMap fromExecutor <+: serviceReplies env table i b.fw.accepted
  shown : ∃ done, b.fw.accepted = done ++ b.fw.waiting ∧
    b.fw.world.instrument = ((instrument table).run (done.map (request env)) i).2
  readsEmpty : ∀ cmd ∈ b.fw.accepted, ReadsEmpty env cmd
  rejected : RefusesEmpty env → (∀ cmd ∈ b.fw.accepted, cmd.msgType = .set →
    ∃ text, request env cmd = .reject text) ∧ b.fw.world.instrument = i

theorem serving_of_reachable (hpin : PowerPinWorks env) (hw : Installed table w) {b : MainLoop}
    (h : (mainLoop env w).Reachable b) : Serving env table w.instrument b := by
  have hfw := (mainLoop_refines env w).reachable h
  have hempty := accepted_readsEmpty hfw
  obtain ⟨done, hx⟩ := exchange_of_reachable hfw
  have hworld := (exchange_served hpin hw hx).2
  refine ⟨published_served hpin hw hfw, ⟨done, hx.accepted_eq, hworld⟩, hempty,
    fun hrefuses => ⟨fun cmd hcmd => request_refused hrefuses (hempty cmd hcmd), ?_⟩⟩
  rw [hworld, instrument_unchanged hfw hrefuses hx.accepted_eq]

/-- **The firmware is the instrument,** if the calls to the power pin succeed, in every reachable
state of the main loop. -/
theorem firmware_serves (hpin : PowerPinWorks env) (hw : Installed table w) {b : MainLoop}
    (h : (mainLoop env w).Reachable b) : Serving env table w.instrument b :=
  serving_of_reachable hpin hw h

/-- After the setup, with one request. -/
theorem firmware_serves_request :
    let w := (setupMemsSwitchesAndRoutes setEnv .boot).post
    let table := w.router.routes.map w.connection
    ∃ b : MainLoop, (b.published.filterMap fromExecutor).length = 1 ∧
      Serving setEnv table w.instrument b ∧ b.fw.world.instrument = w.instrument := by
  intro w table
  obtain ⟨cmd, hcmd⟩ := setPublish_decoded
  obtain ⟨b, ls, hexec, -, -, -, hpub⟩ := request_run hcmd w
  have hserves := firmware_serves (fun _ _ _ => rfl) (setup_installed setEnv) ⟨_, ls, rfl, hexec⟩
  exact ⟨b, hpub, hserves, (hserves.rejected fun _ => (by decide : (-22 : Int) < 0)).2⟩

/-- **Redelivery is harmless.** Take two runs in which all accepted commands have been dispatched,
and which differ in that one command was accepted twice in a row in the second. The instrument is
the same after both, and the second has the reply of the command twice. -/
theorem redelivery_harmless (hpin : PowerPinWorks env) (hw : Installed table w) {s s' : Firmware}
    (hs : (firmware env w).Reachable s) (hs' : (firmware env w).Reachable s')
    (hdone : s.waiting = []) (hdone' : s'.waiting = []) {cmds cmds' : List Command} {cmd : Command}
    (hacc : s.accepted = cmds ++ cmd :: cmds') (hacc' : s'.accepted = cmds ++ cmd :: cmd :: cmds') :
    s'.world.instrument = s.world.instrument ∧
      ∃ om before after, before.length = cmds.length ∧ s.replies = before ++ om :: after ∧
        s'.replies = before ++ om :: om :: after := by
  have hall {s : Firmware} (hs : (firmware env w).Reachable s) (hdone : s.waiting = []) :
      s.replies = serviceReplies env table w.instrument s.accepted ∧ s.world.instrument =
        ((instrument table).run (s.accepted.map (request env)) w.instrument).2 := by
    obtain ⟨done, hx⟩ := exchange_of_reachable hs
    have hacc := hx.accepted_eq
    rw [hdone, List.append_nil] at hacc
    rw [hacc]
    exact exchange_served hpin hw hx
  obtain ⟨hreplies, hworld⟩ := hall hs hdone
  obtain ⟨hreplies', hworld'⟩ := hall hs' hdone'
  obtain ⟨a, as, honce, htwice, hstate⟩ := (instrument_repeatable table).run_repeat
    (cmds.map (request env)) (request env cmd) (cmds'.map (request env)) w.instrument
  have hlen : cmds.length =
      ((instrument table).run (cmds.map (request env)) w.instrument).1.length := by
    rw [Machine.run_length, List.length_map]
  refine ⟨?_, a.render cmd, List.zipWith Answer.render cmds
    ((instrument table).run (cmds.map (request env)) w.instrument).1,
    List.zipWith Answer.render cmds' as, ?_, ?_, ?_⟩
  · rw [hworld', hworld, hacc, hacc']
    simpa using hstate
  · rw [List.length_zipWith, ← hlen, Nat.min_self]
  · rw [hreplies, serviceReplies, hacc, List.map_append, List.map_cons, honce,
      List.zipWith_append hlen]
    rfl
  · rw [hreplies', serviceReplies, hacc', List.map_append, List.map_cons, List.map_cons, htwice,
      List.zipWith_append hlen]
    rfl

/-- An idle firmware receives a request and serves it. -/
theorem idle_serves {pub : Publish} {cmd : Command} (hcmd : mqttCommandDecode env pub = .ok cmd)
    {s : Firmware} (hs : (firmware env w).Reachable s) (hidle : s.Idle) :
    ∃ s', (firmware env w).Reachable s' ∧ s'.Idle ∧ s'.accepted = s.accepted ++ [cmd] := by
  obtain ⟨inbound, outbound, photodiodeQueue, executor, rejection, photodiode, sample, world,
    accepted, taken⟩ := s
  obtain ⟨hin, hout, rfl, rfl⟩ := hidle
  obtain rfl : inbound = .empty := by
    cases inbound
    cases hin
    rfl
  obtain rfl : outbound = .empty := by
    cases outbound
    cases hout
    rfl
  have hput : (MsgQueue.empty : InboundQueue).put? cmd = some ⟨[cmd], Nat.le_succ 1⟩ := rfl
  have h1 := hs.next (Step.receive pub rfl)
  simp only [Firmware.receive, mqttCommandSubmit, hcmd, hput] at h1
  have h2 := h1.next (Step.fetch rfl rfl)
  have h3 := h2.next (Step.dispatch rfl)
  have h4 := h3.next (Step.deliver rfl rfl)
  have h5 := h4.next (Step.take rfl rfl)
  exact ⟨_, h5, ⟨rfl, rfl, rfl, rfl⟩, rfl⟩

/-- A request that switches the power on comes once, and in another run twice. -/
theorem set_request_redelivered : ∃ s s' : Firmware,
    s.accepted.length = 1 ∧ s'.accepted.length = 2 ∧
      s'.world.instrument = s.world.instrument ∧ s.world.instrument.power = true := by
  let w := (setupMemsSwitchesAndRoutes lenientEnv .boot).post
  obtain ⟨cmd, hcmd, hdemand⟩ := lenient_decodes
  have hboot : (Firmware.boot w).Idle := ⟨rfl, rfl, rfl, rfl⟩
  obtain ⟨s, hs, hidle, hacc⟩ := idle_serves hcmd (.start rfl) hboot
  obtain ⟨s', hs', hidle', hacc'⟩ := idle_serves hcmd hs hidle
  rw [hacc] at hacc'
  have hdone {s : Firmware} (h : s.Idle) : s.waiting = [] := by
    rw [Firmware.waiting, h.executor, h.inbound]
    rfl
  have honce : s.accepted = [] ++ cmd :: [] := hacc
  have htwice : s'.accepted = [] ++ cmd :: cmd :: [] := hacc'
  obtain ⟨done, hx⟩ := exchange_of_reachable hs
  have hpower : s.world.level powerGpio = true := by
    have hacc := hx.accepted_eq
    rw [hdone hidle, List.append_nil, honce] at hacc
    rw [hx.world_eq, ← hacc]
    exact dispatch_demanded (fun _ _ _ => rfl) hdemand w
  refine ⟨s, s', by rw [hacc]; rfl, by rw [hacc']; rfl, ?_, hpower⟩
  exact (redelivery_harmless (fun _ _ _ => rfl) (setup_installed lenientEnv) hs hs' (hdone hidle)
    (hdone hidle') honce htwice).1

end Firmware

end Tib
