import Mathlib.Data.List.Nodup
import HispecTib.Proofs.Lasers
import HispecTib.Proofs.Outcomes
import HispecTib.Proofs.Wording

/-!
# Names in keys

The handlers split the key of a request into two names of at most 14 characters.

* `keyPair_rc`, `keyPair_parts`: which keys split, and into what.
* `addressable_iff`: when `mems_set` and `mems_get` do what a key with the name of a switch says.
* `registers_addressable_iff`: when the two laser handlers access the register that a key names.
-/

open CLib

namespace Tib

section Keys

variable {env : Env} {cmd : Command} {a b : List Byte}

theorem keyPair_rc (hkey : cmd.key.cstr = a ++ chr '/' :: b) (ha : chr '/' ∉ a)
    (hb : chr '/' ∉ b) :
    (keyPair env cmd).rc = 0 ↔ (0 < a.length ∧ a.length < 15) ∧ 0 < b.length ∧ b.length < 15 :=
  (keyPair_spec env cmd).rc_eq_zero_iff (.of_oneSlash hkey ha hb)

theorem keyPair_parts (hkey : cmd.key.cstr = a ++ chr '/' :: b) (ha : chr '/' ∉ a)
    (hb : chr '/' ∉ b) (hrc : (keyPair env cmd).rc = 0) :
    (keyPair env cmd).name.cstr = a ∧ (keyPair env cmd).setting.cstr = b :=
  (keyPair_spec env cmd).parts_eq (.of_oneSlash hkey ha hb) hrc

/-- A lookup whose test is passed by one entry only finds that entry. -/
theorem find?_eq_some_of_unique {α : Type} {l : List α} {p : α → Bool} {x : α} (hx : x ∈ l)
    (hp : p x = true) (h : ∀ y ∈ l, p y = true → y = x) : l.find? p = some x := by
  cases hfind : l.find? p with
  | none => exact absurd hp (List.find?_eq_none.mp hfind x hx)
  | some y => rw [h y (List.mem_of_find?_eq_some hfind) (List.find?_some hfind)]

end Keys

/-! ## Switches -/

section Switches

variable (env : Env) (cmd : Command) (p : SwitchPtr) (v : List Byte) (w : World)

/-- The switches of the router have different names, which can stand in a key and fit. -/
structure NamedSwitches : Prop where
  distinct : ∀ p ∈ w.router.switches, ∀ q ∈ w.router.switches,
    (w.switches p).name.cstr = (w.switches q).name.cstr → p = q
  nonempty : ∀ p ∈ w.router.switches, 0 < (w.switches p).name.cstr.length
  noSlash : ∀ p ∈ w.router.switches, chr '/' ∉ (w.switches p).name.cstr
  fits : ∀ p ∈ w.router.switches, (w.switches p).name.cstr.length ≤ memsSwitchNameLen - 1

/-- The parser delivers the value `v`. -/
structure DeliversValue : Prop where
  parsed : 0 ≤ (parsePayload env cmd (valueDescr .string)).rc
  value_eq : ((parsePayload env cmd (valueDescr .string)).charsField 0 memsSwitchNameLen).cstr = v

/-- The value names a side of a switch. -/
def NamesSide : Prop := v.headD 0 = chr 'A' ∨ v.headD 0 = chr 'B'

instance : Decidable (NamesSide v) := inferInstanceAs (Decidable (_ ∨ _))

/-- The text of a reply to `mems_get`. -/
def stateText (side : Byte) : List Byte := str "\x7b\"value\":\"" ++ [side] ++ str "\"\x7d"

/-- `mems_set` moves the switch `p`, and only that one, to the side that the value names, and
`mems_get` with the same key reports it. A value that names no side is refused. -/
structure Addressable : Prop where
  ok_iff : (memsSet env cmd w).val = msgBuilder cmd .respOk okText ↔ NamesSide v
  applied : NamesSide v →
    (memsSet env cmd w).post.switches =
      Function.update w.switches p { w.switches p with state := v.headD 0 }
  reported : NamesSide v → ∀ get : Command, get.key.cstr = cmd.key.cstr →
    (memsGet env get (memsSet env cmd w).post).val =
      msgBuilder get .respOk (stateText (v.headD 0))
  refused : ¬ NamesSide v →
    ErrorReply cmd (memsSet env cmd w).val ∧ (memsSet env cmd w).post.switches = w.switches

variable {env cmd p v w}

theorem NamedSwitches.find (h : NamedSwitches w) (hp : p ∈ w.router.switches) {name : List Byte}
    (hname : cstr name = (w.switches p).name.cstr) : w.findSwitch name = some p := by
  have hfit : ∀ q ∈ w.router.switches, (w.switches q).name.cstr.length < memsSwitchNameLen :=
    fun q hq => Nat.lt_succ_of_le (h.fits q hq)
  refine find?_eq_some_of_unique hp ?_ fun q hq hsame => ?_
  · rw [sameName, decide_eq_true_eq, strncmp_eq_zero, hname]
    rfl
  · refine h.distinct q hq p hp ?_
    have heq := cstr_of_sameName hsame (hname ▸ hfit p hp)
    exact heq.trans hname

theorem NamedSwitches.congr {w' : World} (h : NamedSwitches w) (hwire : w'.wiring = w.wiring) :
    NamedSwitches w' := by
  have hrouter : w'.router = w.router := congrArg Prod.fst hwire
  have hname (q : SwitchPtr) : (w'.switches q).name = (w.switches q).name := by
    have hq : (w'.wiring.2 q).name = (w.wiring.2 q).name := by rw [hwire]
    exact hq
  constructor <;> simp only [hrouter, hname]
  · exact h.distinct
  · exact h.nonempty
  · exact h.noSlash
  · exact h.fits

theorem pinFor_namesSide (s : MemsSwitch) (v : List Byte) :
    s.pinFor (v.headD 0) ≠ none ↔ NamesSide v := by
  unfold MemsSwitch.pinFor NamesSide
  split_ifs with ha hb
  · exact iff_of_true (Option.some_ne_none _) (Or.inl ha)
  · exact iff_of_true (Option.some_ne_none _) (Or.inr hb)
  · exact iff_of_false (not_not.mpr rfl) (not_or.mpr ⟨ha, hb⟩)

theorem DeliversValue.demandedState_eq (h : DeliversValue env cmd v) :
    demandedState env cmd = v.headD 0 := by
  rw [demandedState, ← cstr_headD]
  exact congrArg (List.headD · 0) h.value_eq

/-- The key of a switch. -/
def switchKey (name : List Byte) : List Byte := str "mems/" ++ name

/-- What the split of such a key finds. -/
theorem switchKey_find (env : Env) (hn : NamedSwitches w) (hp : p ∈ w.router.switches)
    (hkey : cmd.key.cstr = switchKey (w.switches p).name.cstr) :
    ((keyPair env cmd).rc = 0 ↔ (w.switches p).name.cstr.length ≤ 14) ∧
      ((keyPair env cmd).rc = 0 → w.findSwitch (keyPair env cmd).setting.data = some p) := by
  have hkey' : cmd.key.cstr = str "mems" ++ chr '/' :: (w.switches p).name.cstr := hkey
  have hslash : chr '/' ∉ str "mems" := by decide
  have hpos := hn.nonempty p hp
  have hlen : (str "mems").length = 4 := rfl
  refine ⟨?_, fun hrc => hn.find hp (keyPair_parts hkey' hslash (hn.noSlash p hp) hrc).2⟩
  rw [keyPair_rc hkey' hslash (hn.noSlash p hp)]
  omega

/-- The request has a target when the key splits and the value names a side. -/
theorem memsTarget_ne_none (hn : NamedSwitches w) (hp : p ∈ w.router.switches)
    (hkey : cmd.key.cstr = switchKey (w.switches p).name.cstr) (hv : DeliversValue env cmd v) :
    memsTarget env cmd w ≠ none ↔ (w.switches p).name.cstr.length ≤ 14 ∧ NamesSide v := by
  obtain ⟨hrc, hfind⟩ := switchKey_find env hn hp hkey
  have hparsed := hv.parsed
  rw [← hrc, ← pinFor_namesSide (w.switches p) v, ← hv.demandedState_eq]
  unfold memsTarget demandedState
  dsimp only
  by_cases hsplit : (keyPair env cmd).rc = 0
  · have hno : ¬ ((keyPair env cmd).rc ≠ 0 ∨
        (parsePayload env cmd (valueDescr .string)).rc < 0) := by omega
    rw [if_neg hno, hfind hsplit, Option.bind_some]
    exact (and_iff_right hsplit).symm
  · rw [if_pos (Or.inl hsplit)]
    exact iff_of_false (not_not.mpr rfl) fun h => hsplit h.1

/-- A request without a target does what it says exactly when its value names no side. -/
theorem addressable_of_refused (ht : memsTarget env cmd w = none) :
    Addressable env cmd p v w ↔ ¬ NamesSide v := by
  have hrefused := memsSet_refused env cmd ht
  have herr := hrefused.error
  have hne : (memsSet env cmd w).val ≠ msgBuilder cmd .respOk okText := fun h =>
    herr.payload_ne (congrArg OutMsg.payload h)
  refine ⟨fun h hside => hne (h.ok_iff.mpr hside), fun hno => ?_⟩
  exact ⟨iff_of_false hne hno, fun h => absurd h hno, fun h => absurd h hno,
    fun _ => ⟨herr, by rw [hrefused.post_eq]⟩⟩

theorem snprintf_stateText (side : Byte) :
    snprintf maxPayloadLen (stateText side) = stateText side :=
  List.take_of_length_le (by simp [stateText, str])

/-- A `mems_get` whose key is found reports the recorded state. -/
theorem memsGet_run (hsplit : (keyPair env cmd).rc = 0)
    (hfind : w.findSwitch (keyPair env cmd).setting.data = some p) :
    (memsGet env cmd w).val = msgBuilder cmd .respOk (stateText (w.switches p).state) := by
  unfold memsGet
  rw [if_neg (not_not.mpr hsplit), Prog.bind_run, Prog.get_run]
  simp only [memsRouterFindSwitch_eq, hfind, Prog.pure_run, memsSwitchGetState]
  exact congrArg (msgBuilder cmd .respOk) (snprintf_stateText _)

/-- A request with a target does what it says. -/
theorem addressable_of_target (hn : NamedSwitches w) (hp : p ∈ w.router.switches)
    (hkey : cmd.key.cstr = switchKey (w.switches p).name.cstr) (hv : DeliversValue env cmd v)
    (ht : memsTarget env cmd w ≠ none) : Addressable env cmd p v w := by
  obtain ⟨hshort, hside⟩ := (memsTarget_ne_none hn hp hkey hv).mp ht
  obtain ⟨hrc, hfind⟩ := switchKey_find env hn hp hkey
  obtain ⟨pin, hpin⟩ := Option.ne_none_iff_exists'.mp ht
  obtain ⟨sw, hsw, hpin', hval, hpost⟩ := memsSet_run env cmd hpin
  rw [hfind (hrc.mpr hshort)] at hsw
  obtain rfl := Option.some.inj hsw
  rw [hv.demandedState_eq] at hpin' hpost
  have hswitches := memsSwitchSetState_switches env hpin'
  rw [← hpost] at hswitches
  refine ⟨iff_of_true hval hside, fun _ => hswitches, fun _ get hget => ?_, fun h => absurd hside h⟩
  have hwire : (memsSet env cmd w).post.wiring = w.wiring := by
    rw [hpost]
    exact memsSwitchSetState_wiring env _ _ w
  have hname : ((memsSet env cmd w).post.switches p).name = (w.switches p).name := by
    rw [hswitches, Function.update_self]
  have hp' : p ∈ (memsSet env cmd w).post.router.switches := by
    rwa [show (memsSet env cmd w).post.router = w.router from congrArg Prod.fst hwire]
  have hkey' : get.key.cstr = switchKey ((memsSet env cmd w).post.switches p).name.cstr := by
    rw [hget, hkey, hname]
  obtain ⟨hrc', hfind'⟩ := switchKey_find env (hn.congr hwire) hp' hkey'
  rw [hname] at hrc'
  have hsplit := hrc'.mpr hshort
  rw [memsGet_run hsplit (hfind' hsplit), hswitches, Function.update_self]

theorem installed_named :
    (∀ p ∈ installedRouter.switches, ∀ q ∈ installedRouter.switches,
      (installedSwitch p).name.cstr = (installedSwitch q).name.cstr → p = q) ∧
    ∀ p ∈ installedRouter.switches, 0 < (installedSwitch p).name.cstr.length ∧
      chr '/' ∉ (installedSwitch p).name.cstr ∧
      (installedSwitch p).name.cstr.length ≤ memsSwitchNameLen - 1 := by decide

/-- The setup gives the switches such names. -/
theorem setup_named (env : Env) :
    NamedSwitches (setupMemsSwitchesAndRoutes env .boot).post := by
  rcases setup_installs env .boot with ⟨hr, hsw⟩ | ⟨hr, -⟩
  · have hptrs : installedRouter.switches = memsSwitchPtrs := rfl
    obtain ⟨hdistinct, hname⟩ := installed_named
    constructor <;> rw [hr]
    · intro p hp q hq
      rw [hsw p (hptrs ▸ hp), hsw q (hptrs ▸ hq)]
      exact hdistinct p hp q hq
    · exact fun p hp => by rw [hsw p (hptrs ▸ hp)]; exact (hname p hp).1
    · exact fun p hp => by rw [hsw p (hptrs ▸ hp)]; exact (hname p hp).2.1
    · exact fun p hp => by rw [hsw p (hptrs ▸ hp)]; exact (hname p hp).2.2
  · have hempty : (setupMemsSwitchesAndRoutes env .boot).post.router.switches = [] :=
      (congrArg MemsRouter.switches hr).trans rfl
    constructor <;> simp [hempty]

/-- The parser delivers the value `A`. -/
def sideEnv : Env := { quietEnv with
  jsonObjParse := refuseEmpty fun _ text _ => ⟨1, text, [some (.chars (str "A" ++ [0]))]⟩ }

def sideSet (key : List Byte) : Command :=
  .setOf key (str "\x7b\"msg_type\":\"set\",\"value\":\"A\"\x7d")

/-- **Switches by name.** A switch of the router can be addressed by its name exactly when the name
has at most 14 characters, or the value names no side. -/
theorem addressable_iff (hn : NamedSwitches w) (hp : p ∈ w.router.switches)
    (hkey : cmd.key.cstr = switchKey (w.switches p).name.cstr) (hv : DeliversValue env cmd v) :
    Addressable env cmd p v w ↔
      ((w.switches p).name.cstr.length ≤ 14 ∨ ¬ NamesSide v) := by
  have hiff := memsTarget_ne_none hn hp hkey hv
  by_cases ht : memsTarget env cmd w = none
  · rw [addressable_of_refused ht]
    have hno := mt hiff.mpr (not_not.mpr ht)
    tauto
  · exact iff_of_true (addressable_of_target hn hp hkey hv ht) (Or.inl (hiff.mp ht).1)

/-- A name of eight characters. -/
theorem mm_sm_addressable :
    Addressable sideEnv (sideSet (str "mems/yj_mm_sm")) 6 (str "A")
      (setupMemsSwitchesAndRoutes sideEnv .boot).post :=
  (addressable_iff (setup_named sideEnv) (by decide) (by decide) ⟨by decide, by decide⟩).mpr
    (Or.inl (by decide))

/-- A name of sixteen characters. -/
theorem forward_retro_refused :
    let w := (setupMemsSwitchesAndRoutes sideEnv .boot).post
    let cmd := sideSet (str "mems/yj_forward_retro")
    NamedSwitches w ∧ 4 ∈ w.router.switches ∧
      cmd.key.cstr = switchKey (w.switches 4).name.cstr ∧ DeliversValue sideEnv cmd (str "A") ∧
      ¬ Addressable sideEnv cmd 4 (str "A") w := by
  intro w cmd
  have hside : NamesSide (str "A") := by decide
  have hnone : memsTarget sideEnv cmd w = none := by decide
  refine ⟨setup_named sideEnv, by decide, by decide, ⟨by decide, by decide⟩, fun h => ?_⟩
  exact (addressable_of_refused hnone).mp h hside

end Switches

/-! ## Laser registers -/

section Registers

/-- The table has an entry named `s`, in any case, with the address `a`. -/
def RegisterAt (s : List Byte) (a : UInt16) : Prop :=
  ∃ r ∈ registerTable, EqNoCase s r.name ∧ r.address = a

theorem registerTable_distinct :
    (registerTable.map fun r => r.name.map tolower).Nodup := by decide

/-- The lookup finds the entry of that name, if there is one. -/
theorem maimanGetRegisterAddress_eq_some {name : List Byte} {a : UInt16} :
    maimanGetRegisterAddress name = some a ↔ RegisterAt (cstr name) a := by
  have hcmp : ∀ r ∈ registerTable, (strcaseeq name r.name = true ↔ EqNoCase (cstr name) r.name) :=
    fun r hr => by rw [strcaseeq_iff, (registerTable_names r hr).1]
  unfold maimanGetRegisterAddress
  constructor
  · intro h
    obtain ⟨r, hr, rfl⟩ := Option.map_eq_some_iff.mp h
    have hmem := List.mem_of_find?_eq_some hr
    have hfound := List.find?_some hr
    exact ⟨r, hmem, (hcmp r hmem).mp hfound, rfl⟩
  · rintro ⟨r, hmem, hname, rfl⟩
    rw [find?_eq_some_of_unique hmem ((hcmp r hmem).mpr hname) fun q hq hsame => ?_]
    · rfl
    · have heq : q.name.map tolower = r.name.map tolower :=
        ((hcmp q hq).mp hsame).symm.trans hname
      exact List.inj_on_of_nodup_map registerTable_distinct hq hmem heq

theorem maimanGetRegisterAddress_eq_none {name : List Byte} :
    maimanGetRegisterAddress name = none ↔ ∀ a, ¬ RegisterAt (cstr name) a := by
  simp only [Option.eq_none_iff_forall_ne_some, ne_eq, maimanGetRegisterAddress_eq_some]

/-- A recognised laser name fits in the first part of a key and has no separator. -/
theorem recognised_fits {n : List Byte} (h : getLaserChannel n ≠ laserUnknown) :
    chr '/' ∉ cstr n ∧ (cstr n).length ≤ 6 := by
  obtain ⟨m, hm, hcase, -⟩ := exists_name h
  have hlit : ∀ m ∈ laserNames, chr '/' ∉ (cstr m).map tolower ∧ (cstr m).length ≤ 6 := by decide
  obtain ⟨hno, hlen⟩ := hlit m hm
  have hsame : (cstr n).map tolower = (cstr m).map tolower := hcase
  refine ⟨fun hmem => hno ?_, ?_⟩
  · rw [← hsame]
    exact List.mem_map_of_mem hmem
  · have hl := congrArg List.length hsame
    simp only [List.length_map] at hl
    omega

end Registers

section LaserRequests

variable (env : Env) (cmd : Command) (w : World)

/-- The node and the address that a laser request accesses, unless its key is refused. -/
def laserRegister : Option (Nat × UInt16) :=
  let kp := keyPair env cmd
  let node := getLaserChannel (kp.name.data.drop 5)
  if kp.rc ≠ 0 ∨ node = laserUnknown then none
  else (maimanGetRegisterAddress kp.setting.data).map fun addr => (node, addr)

/-- The value that a set writes. -/
def laserValue : UInt16 := (parsePayload env cmd (valueDescr .number)).uint16Field 0

/-- A set writes to the register that its key names, if its payload parses. -/
theorem laserTarget_eq : laserTarget env cmd =
    if (parsePayload env cmd (valueDescr .number)).rc < 0 then none
    else (laserRegister env cmd).map fun r =>
      .modbusWriteHoldingRegs r.1 r.2 (laserValue env cmd) := by
  unfold laserTarget laserRegister laserValue
  dsimp only
  by_cases hrc : (parsePayload env cmd (valueDescr .number)).rc < 0
  · rw [if_pos hrc, if_pos (Or.inr (Or.inl hrc))]
  · rw [if_neg hrc]
    by_cases hkp : (keyPair env cmd).rc ≠ 0 ∨
        getLaserChannel ((keyPair env cmd).name.data.drop 5) = laserUnknown
    · rw [if_pos (hkp.imp_right Or.inr), if_pos hkp, Option.map_none]
    · have hno := not_or.mp hkp
      rw [if_neg (not_or.mpr ⟨hno.1, not_or.mpr ⟨hrc, hno.2⟩⟩), if_neg hkp, Option.map_map]
      rfl

/-- The text of a reply to `laser_setting_get`. -/
def registerText (setting : List Byte) (i : Int) : List Byte :=
  str "\x7b\"" ++ setting ++ str "\":" ++ decimalInt i ++ str "\x7d"

/-- The reply of `laser_setting_get` to the answer of its read of a register that holds `value`. It
reports 0 when the device answers with an exception code. -/
def laserGetReply (value : UInt16) (rc : Int) : OutMsg :=
  if rc < 0 then errorReply cmd "get_driver_setting failed"
  else msgBuilder cmd .respOk (snprintf maxPayloadLen
    (registerText (keyPair env cmd).setting.cstr (if rc = 0 then value else 0).toInt16.toInt))

variable {cmd w}

/-- A request whose key is refused is only answered. -/
theorem laserSettingGet_eq_pure (h : laserRegister env cmd = none) :
    ∃ s, laserSettingGet env cmd = pure (errorReply cmd s) := by
  unfold laserRegister at h
  unfold laserSettingGet
  dsimp only at h ⊢
  by_cases hkp : (keyPair env cmd).rc ≠ 0
  · exact ⟨_, if_pos hkp⟩
  by_cases hnode : getLaserChannel ((keyPair env cmd).name.data.drop 5) = laserUnknown
  · exact ⟨_, by rw [if_neg hkp, if_pos hnode]⟩
  rw [if_neg (not_or.mpr ⟨hkp, hnode⟩)] at h
  exact ⟨_, by rw [if_neg hkp, if_neg hnode, Option.map_eq_none_iff.mp h]⟩

theorem laserSettingGet_refused (h : laserRegister env cmd = none) :
    Refuses cmd (laserSettingGet env cmd) w := by
  obtain ⟨s, hs⟩ := laserSettingGet_eq_pure env h
  rw [hs]
  exact refuses_pure s w

theorem maimanReadU16_run (drv : MaimanDriver) (addr value : UInt16) :
    let c := HwCall.modbusReadHoldingRegs drv.nodeId addr
    let rc := env.answer w.trace.length c
    maimanReadU16 env drv addr value w =
      ⟨(!decide (rc < 0), if rc = 0 then w.regs drv.nodeId addr else value), w.afterCall c rc,
        [w]⟩ := by
  by_cases hneg : env.answer w.trace.length (.modbusReadHoldingRegs drv.nodeId addr) < 0
  · simp [maimanReadU16, modbusReadHoldingRegs, hwCall, hneg]
    rfl
  · simp [maimanReadU16, modbusReadHoldingRegs, hwCall, hneg]
    rfl

theorem laserSettingGet_run {node : Nat} {addr : UInt16}
    (h : laserRegister env cmd = some (node, addr)) :
    laserSettingGet env cmd w = accessRun env w (.modbusReadHoldingRegs node addr)
      (laserGetReply env cmd (w.regs node addr)) := by
  unfold laserRegister at h
  dsimp only at h
  split_ifs at h with hno
  obtain ⟨addr', haddr, hpair⟩ := Option.map_eq_some_iff.mp h
  cases hpair
  rw [not_or] at hno
  have hregs : (enablePowerAndWait env w).post.regs = w.regs := by
    funext n
    exact congrArg Prod.fst (enablePowerAndWait_keeps_reads (n := n) env w)
  unfold laserSettingGet accessRun laserGetReply registerText
  simp only [if_neg hno.1, if_neg hno.2, haddr, Prog.bind_run, Prog.ite_run, maimanReadU16_run,
    hregs, Bool.not_not, decide_eq_true_eq]
  split_ifs <;> simp

end LaserRequests

/-! ## Registers by name -/

section RegisterNames

/-- The node and the address of a Modbus transaction. -/
def HwCall.registerAccess : HwCall → Option (Nat × UInt16)
  | .modbusReadHoldingRegs node addr | .modbusWriteHoldingRegs node addr _ => some (node, addr)
  | .deviceIsReady _ | .gpioPinConfigure _ | .gpioPinSet _ _ | .gpioPinGet _
  | .dacChannelSetup _ | .dacWriteValue _ _ => none

/-- The Modbus transactions, in order. -/
def registerAccesses (es : List Event) : List (Nat × UInt16) :=
  es.filterMap fun
    | .call c _ => c.registerAccess
    | .sleep _ => none

/-- The key of a laser setting. -/
def laserKey (name s : List Byte) : List Byte := str "laser" ++ cstr name ++ chr '/' :: s

variable (env : Env) (cmd : Command) (n s : List Byte) (w : World)

/-- The handler `x` for laser `n` and setting `s` makes one Modbus transaction, at the address of
the entry named `s`. Without such an entry, and only then, it makes none and replies an error. -/
structure NamesRegister (x : Prog World OutMsg) : Prop where
  access_iff : ∀ a,
    registerAccesses (eventsOf x w) = [(getLaserChannel n, a)] ↔ RegisterAt s a
  refused_iff : ErrorReply cmd (x w).val ∧ registerAccesses (eventsOf x w) = [] ↔
    ∀ a, ¬ RegisterAt s a

variable {env cmd n s w}

theorem wakeEvents_accesses : registerAccesses (wakeEvents env w) = [] := by
  by_cases hon : ReadsOn env w <;>
    simp [wakeEvents, powerEvents, hon, registerAccesses, callAt, HwCall.registerAccess]

theorem accessRun_accesses {x : Prog World OutMsg} {c : HwCall} {reply : Int → OutMsg}
    (h : x w = accessRun env w c reply) :
    registerAccesses (eventsOf x w) = c.registerAccess.toList := by
  obtain ⟨-, htrace⟩ := accessRun_emits env w c reply
  rw [← h] at htrace
  rw [Emits.eventsOf_eq htrace, registerAccesses, List.filterMap_append]
  have hwake : registerAccesses (wakeEvents env w) = [] := wakeEvents_accesses
  rw [registerAccesses] at hwake
  rw [hwake, List.nil_append]
  cases hc : c.registerAccess <;> simp [hc]

theorem Refuses.eventsOf_eq {x : Prog World OutMsg} (h : Refuses cmd x w) : eventsOf x w = [] := by
  rw [eventsOf, h.post_eq, List.drop_length]

theorem RegisterAt.length_pos {a : UInt16} (h : RegisterAt s a) : 0 < s.length := by
  obtain ⟨e, he, hcase, -⟩ := h
  have hl : (s.map tolower).length = (e.name.map tolower).length := congrArg List.length hcase
  simp only [List.length_map] at hl
  exact hl ▸ (registerTable_names e he).2.1

theorem RegisterAt.noSlash {a : UInt16} (h : RegisterAt s a) : chr '/' ∉ s := by
  obtain ⟨e, he, hcase, -⟩ := h
  have hsame : s.map tolower = e.name.map tolower := hcase
  exact fun hmem => (registerTable_names e he).2.2.1.1 (hsame ▸ List.mem_map_of_mem hmem)

/-- What the split of such a key finds. -/
theorem laserKey_split (env : Env) (hn : getLaserChannel n ≠ laserUnknown) (hs : chr '/' ∉ s)
    (hkey : cmd.key.cstr = laserKey n s) :
    ((keyPair env cmd).rc = 0 ↔ 0 < s.length ∧ s.length ≤ 14) ∧
      ((keyPair env cmd).rc = 0 →
        getLaserChannel ((keyPair env cmd).name.data.drop 5) = getLaserChannel n ∧
          (keyPair env cmd).setting.cstr = s) := by
  obtain ⟨hslash, hlen⟩ := recognised_fits hn
  have hfamily : chr '/' ∉ str "laser" := by decide
  have hname : chr '/' ∉ str "laser" ++ cstr n := by simp [hfamily, hslash]
  have hfive : (str "laser").length = 5 := rfl
  refine ⟨?_, fun hrc => ⟨?_, (keyPair_parts hkey hname hs hrc).2⟩⟩
  · rw [keyPair_rc hkey hname hs, List.length_append, hfive]
    omega
  · exact AddressedTo.channel env ⟨hslash, s, hkey⟩ hfive hfamily hrc

theorem laserKey_register (env : Env) (hn : getLaserChannel n ≠ laserUnknown) (hs : chr '/' ∉ s)
    (hkey : cmd.key.cstr = laserKey n s) (r : Nat × UInt16) :
    laserRegister env cmd = some r ↔
      s.length ≤ 14 ∧ r.1 = getLaserChannel n ∧ RegisterAt s r.2 := by
  obtain ⟨hrc, hparts⟩ := laserKey_split env hn hs hkey
  unfold laserRegister
  dsimp only
  by_cases hsplit : (keyPair env cmd).rc = 0
  · obtain ⟨hchannel, hset⟩ := hparts hsplit
    have hno : ¬ ((keyPair env cmd).rc ≠ 0 ∨ getLaserChannel n = laserUnknown) := by
      simp [hsplit, hn]
    have hset' : cstr (keyPair env cmd).setting.data = s := hset
    rw [hchannel, if_neg hno, Option.map_eq_some_iff]
    simp only [maimanGetRegisterAddress_eq_some, hset', (hrc.mp hsplit).2, true_and]
    constructor
    · rintro ⟨a, ha, rfl⟩
      exact ⟨rfl, ha⟩
    · rintro ⟨hnode, ha⟩
      exact ⟨r.2, ha, by rw [← hnode]⟩
  · rw [if_pos (Or.inl hsplit)]
    exact iff_of_false nofun fun h => hsplit (hrc.mpr ⟨h.2.2.length_pos, h.1⟩)

/-- A handler with a target names registers well when its targets are the entries. -/
theorem namesRegister_iff {x : Prog World OutMsg} {target : Option (Nat × UInt16)} {P : Prop}
    (hnone : target = none → Refuses cmd x w)
    (hsome : ∀ r, target = some r → registerAccesses (eventsOf x w) = [r])
    (ht : ∀ r, target = some r ↔ P ∧ r.1 = getLaserChannel n ∧ RegisterAt s r.2) :
    NamesRegister cmd n s w x ↔ P ∨ ∀ a, ¬ RegisterAt s a := by
  cases htarget : target with
  | none =>
    have hno : P → ∀ a, ¬ RegisterAt s a := fun hP a ha => by
      have hr := (ht (getLaserChannel n, a)).mpr ⟨hP, rfl, ha⟩
      rw [htarget] at hr
      cases hr
    have hrefused := hnone htarget
    constructor
    · intro h
      exact Or.inr (h.refused_iff.mp ⟨hrefused.error, by rw [hrefused.eventsOf_eq]; rfl⟩)
    · intro h
      have hentry := h.elim hno id
      refine ⟨fun a => iff_of_false ?_ (hentry a), iff_of_true ⟨hrefused.error, ?_⟩ hentry⟩ <;>
        rw [hrefused.eventsOf_eq]
      · nofun
      · rfl
  | some r =>
    obtain ⟨hP, hnode, ha⟩ := (ht r).mp htarget
    have haccess := hsome r htarget
    refine iff_of_true ⟨fun a => ?_, ?_⟩ (Or.inl hP) <;> rw [haccess]
    · constructor
      · intro heq
        obtain rfl := List.singleton_inj.mp heq
        exact ha
      · intro ha'
        have hr := (ht (getLaserChannel n, a)).mpr ⟨hP, rfl, ha'⟩
        rw [htarget] at hr
        rw [Option.some.inj hr]
    · exact iff_of_false (fun h => by cases h.2) fun hno => hno r.2 ha

/-- **Registers by name.** A get names every register well exactly when the name of the setting has
at most 14 characters, or the table has no such entry; a set in addition needs a payload that
parses. -/
theorem registers_addressable_iff (env : Env) (w : World)
    (hn : getLaserChannel n ≠ laserUnknown) (hs : chr '/' ∉ s)
    (hkey : cmd.key.cstr = laserKey n s) :
    (NamesRegister cmd n s w (laserSettingGet env cmd) ↔
      s.length ≤ 14 ∨ ∀ a, ¬ RegisterAt s a) ∧
    (NamesRegister cmd n s w (laserSettingSet env cmd) ↔
      (s.length ≤ 14 ∧ 0 ≤ (parsePayload env cmd (valueDescr .number)).rc) ∨
        ∀ a, ¬ RegisterAt s a) := by
  have hregister := laserKey_register env hn hs hkey
  constructor
  · refine namesRegister_iff (laserSettingGet_refused env) (fun r hr => ?_) hregister
    exact accessRun_accesses (laserSettingGet_run env hr)
  · have htarget := laserTarget_eq env cmd
    by_cases hparse : (parsePayload env cmd (valueDescr .number)).rc < 0
    · rw [if_pos hparse] at htarget
      have htargets (r : Nat × UInt16) : none = some r ↔
          (s.length ≤ 14 ∧ 0 ≤ (parsePayload env cmd (valueDescr .number)).rc) ∧
            r.1 = getLaserChannel n ∧ RegisterAt s r.2 :=
        iff_of_false nofun fun h => absurd h.1.2 (not_le.mpr hparse)
      refine namesRegister_iff (fun _ => laserSettingSet_refused htarget) (fun r hr => ?_) htargets
      cases hr
    · rw [if_neg hparse] at htarget
      simp only [not_lt.mp hparse, and_true]
      refine namesRegister_iff (fun hr => laserSettingSet_refused ?_) (fun r hr => ?_) hregister
      · rw [htarget, hr, Option.map_none]
      · rw [hr, Option.map_some] at htarget
        exact accessRun_accesses (laserSettingSet_run env w htarget)

/-- The parser decodes the value as `n`. -/
def numberEnv (n : Int) : Env := { quietEnv with
  jsonObjParse := refuseEmpty fun _ text _ => ⟨1, text, [some (.int n)]⟩ }

def numberSet (key : List Byte) (n : Int) : Command :=
  .setOf key (str "\x7b\"msg_type\":\"set\",\"value\":" ++ decimalInt n ++ str "\x7d")

/-- A register with a short name. -/
theorem current_addressable :
    let cmd := numberSet (str "laser1028y/CURRENT") 1500
    NamesRegister cmd (str "1028y") (str "CURRENT") .boot (laserSettingGet (numberEnv 1500) cmd) ∧
      NamesRegister cmd (str "1028y") (str "CURRENT") .boot
        (laserSettingSet (numberEnv 1500) cmd) := by
  intro cmd
  have hkey : cmd.key.cstr = laserKey (str "1028y") (str "CURRENT") := by decide
  obtain ⟨hget, hset⟩ :=
    registers_addressable_iff (numberEnv 1500) .boot (by decide) (by decide) hkey
  exact ⟨hget.mpr (Or.inl (by decide)), hset.mpr (Or.inl ⟨by decide, by decide⟩)⟩

/-- A register whose name has 24 characters. -/
theorem tec_temperature_refused :
    let cmd := numberSet (str "laser1028y/TEC_TEMPERATURE_MEASURED") 25
    let s := str "TEC_TEMPERATURE_MEASURED"
    cmd.key.cstr = laserKey (str "1028y") s ∧ RegisterAt s 0x1000 ∧
      ¬ NamesRegister cmd (str "1028y") s .boot (laserSettingGet (numberEnv 25) cmd) ∧
      ¬ NamesRegister cmd (str "1028y") s .boot (laserSettingSet (numberEnv 25) cmd) := by
  intro cmd s
  have hentry : RegisterAt s 0x1000 := ⟨_, List.mem_cons_self, rfl, rfl⟩
  have hget : laserRegister (numberEnv 25) cmd = none := by decide
  have hset : laserTarget (numberEnv 25) cmd = none := by decide
  have hno {x : Prog World OutMsg} (hx : Refuses cmd x .boot) :
      ¬ NamesRegister cmd (str "1028y") s .boot x := fun h => by
    have haccess := (h.access_iff 0x1000).mpr hentry
    rw [hx.eventsOf_eq] at haccess
    cases haccess
  exact ⟨by decide, hentry, hno (laserSettingGet_refused (numberEnv 25) hget),
    hno (laserSettingSet_refused hset)⟩

end RegisterNames

end Tib
