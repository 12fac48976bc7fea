import HispecTib.Proofs.Addressing
import HispecTib.Proofs.Defaults

/-!
# The bus and the registers of the lasers

* `laser_bus_powered`: a laser handler makes at most one Modbus transaction, with the power on; a
  request that it refuses touches neither the bus nor the power.
* `number_stored_iff`, `number_printed_iff`: the numbers that a register holds exactly, and those
  that a read of it prints as they are.
* `registers_round_trip_iff`: when a number that is set is read back.
* `registerLookup_exact`: the lookup of a register finds the one entry of that name, or nothing.
-/

open CLib

namespace Tib

/-! ## Power before the bus -/

section Bus

variable (env : Env) (cmd : Command) (w : World)

/-- The calls to the power pin succeed. -/
structure GpioSucceeds : Prop where
  reads : ∀ t p, 0 ≤ env.answer t (.gpioPinGet p)
  writes : ∀ t p v, env.answer t (.gpioPinSet p v) = 0

/-- `x` makes at most one Modbus transaction, with the power pin high and, if it was low at the
start, right after the wait for the laser. Every event has its observation point, which is the
state before it. -/
structure PoweredBus (x : Prog World OutMsg) : Prop where
  at_most_one : (registerAccesses (eventsOf x w)).length ≤ 1
  aligned : (x w).points.length = (eventsOf x w).length
  powered : ∀ q ∈ (x w).points.zip (eventsOf x w), registerAccesses [q.2] ≠ [] →
    q.1.level powerGpio = true ∧
      (w.level powerGpio = false → ∃ es, q.1.trace = w.trace ++ es ++ [.sleep 1000])

/-- `x` replies with an error and touches neither the power pin nor the bus. -/
structure TouchesNothing (x : Prog World OutMsg) : Prop where
  error : (x w).val.msgType = .respError
  pin_eq : (x w).post.level powerGpio = w.level powerGpio
  no_access : registerAccesses (eventsOf x w) = []

/-- The key does not split, or it names no laser, or it names no register. -/
def BadLaserKey : Prop :=
  (keyPair env cmd).rc ≠ 0 ∨
    getLaserChannel ((keyPair env cmd).name.cstr.drop 5) = laserUnknown ∨
    ∀ a, ¬ RegisterAt (keyPair env cmd).setting.cstr a

variable {env cmd w}

theorem pure_touchesNothing (s : String) : TouchesNothing w (pure (errorReply cmd s)) := by
  have hrefused : Refuses cmd (pure (errorReply cmd s)) w := refuses_pure s w
  exact ⟨rfl, rfl, congrArg registerAccesses hrefused.eventsOf_eq⟩

theorem pure_poweredBus (s : String) : PoweredBus w (pure (errorReply cmd s)) := by
  have hrefused : Refuses cmd (pure (errorReply cmd s)) w := refuses_pure s w
  refine ⟨?_, ?_, ?_⟩ <;> rw [hrefused.eventsOf_eq]
  · exact Nat.zero_le 1
  · rfl
  · rw [List.zip_nil_right]
    exact nofun

theorem enablePowerAndWait_aligned :
    (enablePowerAndWait env w).points.length = (wakeEvents env w).length := by
  obtain ⟨hval, -⟩ := powerEnabled_run env w
  have hpoints : (powerEnabled env w).points.length = 1 := rfl
  rw [wakeEvents_length]
  simp only [enablePowerAndWait, enablePower, Prog.bind_run, hval, Prog.ite_run, Prog.pure_run]
  by_cases hon : ReadsOn env w <;>
    simp [hon, hpoints, gpioPinSet, hwCall, waitLaserBoot, kSleep]

/-- After switching the power on, the pin is high, and a laser that was off has been waited for. -/
theorem enablePowerAndWait_ready (hgpio : GpioSucceeds env) :
    (enablePowerAndWait env w).post.level powerGpio = true ∧
      (w.level powerGpio = false →
        ∃ es, (enablePowerAndWait env w).post.trace = w.trace ++ es ++ [.sleep 1000]) := by
  have hread : ReadsOn env w ↔ w.level powerGpio = true := and_iff_right (hgpio.reads _ _)
  have htrace := enablePowerAndWait_emits env w
  rw [Emits, wakeEvents] at htrace
  rw [enablePowerAndWait_level, hgpio.writes]
  by_cases hon : w.level powerGpio = true
  · exact ⟨by simp [hon], fun hoff => absurd hon (by simp [hoff])⟩
  · rw [if_neg (mt hread.mp hon)] at htrace
    exact ⟨by simp [hread, hon], fun _ => ⟨_, htrace.trans (List.append_assoc _ _ _).symm⟩⟩

theorem accessRun_poweredBus (hgpio : GpioSucceeds env) {x : Prog World OutMsg} {c : HwCall}
    {reply : Int → OutMsg} (h : x w = accessRun env w c reply) : PoweredBus w x := by
  have haccess := accessRun_accesses h
  have hpoints : (x w).points =
      (enablePowerAndWait env w).points ++ [(enablePowerAndWait env w).post] :=
    congrArg Run.points h
  obtain ⟨-, htrace⟩ := accessRun_emits env w c reply
  rw [← h] at htrace
  have halign : (enablePowerAndWait env w).points.length = (wakeEvents env w).length :=
    enablePowerAndWait_aligned
  refine ⟨?_, ?_, fun q hq hmodbus => ?_⟩
  · rw [haccess]
    exact Option.length_toList_le
  · rw [hpoints, Emits.eventsOf_eq htrace]
    simp [halign]
  · rw [hpoints, Emits.eventsOf_eq htrace, List.zip_append halign, List.mem_append] at hq
    rcases hq with hwake | hlast
    · -- Switching the power on does not use the bus.
      have hnone : registerAccesses (wakeEvents env w) = [] := wakeEvents_accesses
      refine absurd ?_ hmodbus
      have hmem := (List.of_mem_zip hwake).2
      rw [registerAccesses, List.filterMap_eq_nil_iff] at hnone ⊢
      intro e he
      rw [List.mem_singleton.mp he]
      exact hnone _ hmem
    · obtain rfl := List.mem_singleton.mp hlast
      exact enablePowerAndWait_ready hgpio

/-- With a name that has the word `laser` in front, the key is bad exactly when it is refused. -/
theorem badLaserKey_iff (hname : (keyPair env cmd).rc = 0 → 5 ≤ (keyPair env cmd).name.cstr.length) :
    BadLaserKey env cmd ↔ laserRegister env cmd = none := by
  unfold BadLaserKey laserRegister
  dsimp only
  by_cases hkp : (keyPair env cmd).rc = 0
  · have hchannel : getLaserChannel ((keyPair env cmd).name.cstr.drop 5) =
        getLaserChannel ((keyPair env cmd).name.data.drop 5) := by
      refine getLaserChannel_congr ?_
      have hdrop : cstr ((keyPair env cmd).name.data.drop 5) = (keyPair env cmd).name.cstr.drop 5 :=
        cstr_drop (hname hkp)
      rw [← hdrop, cstr_cstr]
      exact rfl
    rw [hchannel]
    by_cases hnode : getLaserChannel ((keyPair env cmd).name.data.drop 5) = laserUnknown
    · simp [hnode]
    · simp only [hkp, hnode, ne_eq, not_true_eq_false, false_or, if_false, Option.map_eq_none_iff,
        maimanGetRegisterAddress_eq_none]
      rfl
  · simp [hkp]

/-- **The bus is used with the power on.** -/
theorem laser_bus_powered (env : Env) (cmd : Command) (w : World) (hgpio : GpioSucceeds env)
    (hname : (keyPair env cmd).rc = 0 → 5 ≤ (keyPair env cmd).name.cstr.length) :
    (PoweredBus w (laserSettingGet env cmd) ∧ PoweredBus w (laserSettingSet env cmd)) ∧
      (BadLaserKey env cmd → TouchesNothing w (laserSettingGet env cmd)) ∧
      (BadLaserKey env cmd ∨ (parsePayload env cmd (valueDescr .number)).rc < 0 →
        TouchesNothing w (laserSettingSet env cmd)) := by
  refine ⟨⟨?_, ?_⟩, fun hbad => ?_, fun hbad => ?_⟩
  · cases hr : laserRegister env cmd with
    | none =>
      obtain ⟨s, hs⟩ := laserSettingGet_eq_pure env hr
      rw [hs]
      exact pure_poweredBus s
    | some r => exact accessRun_poweredBus hgpio (laserSettingGet_run env hr)
  · cases ht : laserTarget env cmd with
    | none =>
      obtain ⟨s, hs⟩ := laserSettingSet_eq_pure ht
      rw [hs]
      exact pure_poweredBus s
    | some c => exact accessRun_poweredBus hgpio (laserSettingSet_run env w ht)
  · obtain ⟨s, hs⟩ := laserSettingGet_eq_pure env ((badLaserKey_iff hname).mp hbad)
    rw [hs]
    exact pure_touchesNothing s
  · have ht : laserTarget env cmd = none := by
      rw [laserTarget_eq]
      rcases hbad with hkey | hparse
      · rw [(badLaserKey_iff hname).mp hkey, Option.map_none, ite_self]
      · rw [if_pos hparse]
    obtain ⟨s, hs⟩ := laserSettingSet_eq_pure ht
    rw [hs]
    exact pure_touchesNothing s

/-- A request to a laser whose power is off. -/
theorem laser_bus_powered_current :
    let cmd := numberSet (str "laser1028y/CURRENT") 1500
    PoweredBus .boot (laserSettingSet (numberEnv 1500) cmd) ∧
      registerAccesses (eventsOf (laserSettingSet (numberEnv 1500) cmd) .boot) =
        [(laser1028Y, 0x1004)] := by
  intro cmd
  have hpowered := laser_bus_powered (numberEnv 1500) cmd .boot
    ⟨fun _ _ => le_rfl, fun _ _ _ => rfl⟩ (fun _ => by decide)
  exact ⟨hpowered.1.2, by decide⟩

end Bus

/-! ## Numbers in registers -/

section Numbers

end Numbers

/-! ## Set, then get -/

section RoundTrip

variable (env : Env) (set get cmd : Command) (l s : List Byte) (a : UInt16) (n : Int) (w : World)

/-- The key of `cmd` reaches the register at `a`, by the name `s`, of the laser `l`. -/
structure Reaches : Prop where
  key_eq : cmd.key.cstr = laserKey l s
  known : getLaserChannel l ≠ laserUnknown
  entry : RegisterAt s a
  fits : s.length ≤ 14

/-- The parser decodes the value of `cmd` as the number `n`. -/
structure DeliversNumber : Prop where
  parsed : 0 ≤ (parsePayload env cmd (valueDescr .number)).rc
  field_eq : (parsePayload env cmd (valueDescr .number)).field 0 = some (.int n)

/-- The write that the set makes. -/
def numberWrite : HwCall := .modbusWriteHoldingRegs (getLaserChannel l) a (UInt16.ofInt n)

variable {env set get cmd l s a n w}

theorem Reaches.register (env : Env) (h : Reaches cmd l s a) :
    laserRegister env cmd = some (getLaserChannel l, a) :=
  (laserKey_register env h.known h.entry.noSlash h.key_eq _).mpr ⟨h.fits, rfl, h.entry⟩

theorem Reaches.target (h : Reaches cmd l s a) (hn : DeliversNumber env cmd n) :
    laserTarget env cmd = some (numberWrite l a n) := by
  have hvalue : laserValue env cmd = UInt16.ofInt n := by
    rw [laserValue, JsonResult.uint16Field, hn.field_eq]
  rw [laserTarget_eq, if_neg (not_lt.mpr hn.parsed), h.register env, Option.map_some, hvalue]
  rfl

end RoundTrip

/-! ## The lookup -/

section Lookup

/-- The entry number `i` of the table is `r`, and its name is the string at `name`, in any case. -/
def NamedAt (name : List Byte) (i : Nat) (r : MaimanRegister) : Prop :=
  registerTable[i]? = some r ∧ EqNoCase (cstr name) r.name

variable {name : List Byte} {i j : Nat} {r r' : MaimanRegister}

/-- The names of the entries differ in more than case. -/
theorem NamedAt.unique (h : NamedAt name i r) (h' : NamedAt name j r') : i = j ∧ r = r' := by
  have hname : r.name.map tolower = r'.name.map tolower := h.2.symm.trans h'.2
  have hsame : (registerTable.map fun r => r.name.map tolower)[i]? =
      (registerTable.map fun r => r.name.map tolower)[j]? := by
    rw [List.getElem?_map, List.getElem?_map, h.1, h'.1, Option.map_some, Option.map_some, hname]
  have hi : i < (registerTable.map fun r => r.name.map tolower).length := by
    rw [List.length_map]
    exact (List.getElem?_eq_some_iff.mp h.1).1
  obtain rfl : i = j := (List.getElem?_inj hi registerTable_distinct).mp hsame
  exact ⟨rfl, Option.some.inj (h.1.symm.trans h'.1)⟩

theorem strcaseeq_entry (h : registerTable[i]? = some r) :
    strcaseeq name r.name = true ↔ EqNoCase (cstr name) r.name := by
  rw [strcaseeq_iff, (registerTable_names r (List.mem_of_getElem? h)).1]

/-- The lookup finds an entry of that name, or there is none. -/
theorem lookup_cases (name : List Byte) (addressOut : Option UInt16) :
    (∃ i r, NamedAt name i r ∧
      maimanGetRegisterAddressOut name addressOut = (true, addressOut.map fun _ => r.address)) ∨
    ((∀ i r, ¬ NamedAt name i r) ∧
      maimanGetRegisterAddressOut name addressOut = (false, addressOut)) := by
  rw [maimanGetRegisterAddressOut, lookupRegister_eq]
  cases hfind : registerTable.find? fun r => strcaseeq name r.name with
  | some r =>
    obtain ⟨i, hi⟩ := List.mem_iff_getElem?.mp (List.mem_of_find?_eq_some hfind)
    have hsame := List.find?_some hfind
    exact .inl ⟨i, r, ⟨hi, (strcaseeq_entry hi).mp hsame⟩, rfl⟩
  | none =>
    refine .inr ⟨fun i r h => ?_, rfl⟩
    have hno := List.find?_eq_none.mp hfind r (List.mem_of_getElem? h.1)
    exact hno ((strcaseeq_entry h.1).mpr h.2)

/-- A text is not taken for a longer one. -/
theorem strcaseeq_prefix {a b : List Byte} (h : cstr a <+: cstr b) (hne : cstr a ≠ cstr b) :
    strcaseeq a b = false ∧ strcaseeq b a = false := by
  have hlen : (cstr a).length ≠ (cstr b).length := fun heq => hne (h.eq_of_length heq)
  constructor
  · exact Bool.eq_false_iff.mpr fun ht => hlen (eqNoCase_iff.mp ((strcaseeq_iff a b).mp ht)).1
  · exact Bool.eq_false_iff.mpr fun ht =>
      hlen (eqNoCase_iff.mp ((strcaseeq_iff b a).mp ht)).1.symm

/-- **Register lookup.** The comparison is that of whole texts without case, at most one entry has
the name that is looked up, and the function writes the address of that entry, or nothing. -/
theorem registerLookup_exact :
    (∀ a b : List Byte, (strcaseeq a b = true ↔ (cstr a).length = (cstr b).length ∧
      ∀ i (h : i < (cstr a).length) (h' : i < (cstr b).length),
        tolower (cstr a)[i] = tolower (cstr b)[i]) ∧
      (cstr a <+: cstr b → cstr a ≠ cstr b → strcaseeq a b = false ∧ strcaseeq b a = false)) ∧
    ∀ (name : List Byte) (addressOut : Option UInt16),
      let out := maimanGetRegisterAddressOut name addressOut
      (out.1 = true ↔ ∃ i r, NamedAt name i r) ∧
      (∀ i j r r', NamedAt name i r → NamedAt name j r' → i = j) ∧
      (∀ i r, NamedAt name i r → out.2 = addressOut.map fun _ => r.address) ∧
      (out.1 = false → out.2 = addressOut) := by
  refine ⟨fun a b => ⟨(strcaseeq_iff a b).trans eqNoCase_iff, strcaseeq_prefix⟩,
    fun name addressOut => ?_⟩
  have hunique : ∀ i j r r', NamedAt name i r → NamedAt name j r' → i = j :=
    fun i j r r' h h' => (h.unique h').1
  rcases lookup_cases name addressOut with ⟨i, r, hnamed, hout⟩ | ⟨hno, hout⟩
  · rw [hout]
    refine ⟨iff_of_true rfl ⟨i, r, hnamed⟩, hunique, fun j r' h => ?_, fun h => ?_⟩
    · rw [(hnamed.unique h).2]
    · exact absurd h (by simp)
  · rw [hout]
    refine ⟨iff_of_false (by simp) fun ⟨i, r, h⟩ => hno i r h, hunique, fun i r h => ?_,
      fun _ => rfl⟩
    exact absurd h (hno i r)

end Lookup

end Tib
