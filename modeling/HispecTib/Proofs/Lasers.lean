import HispecTib.App.Handlers
import HispecTib.Proofs.KeyPairs

/-!
# Laser and attenuator names

* `getLaserChannel_eq`: the channel of a name as a chain of comparisons of whole names.
* `attenuatorSet_eq`, `dacPut_keeps`: `attenuator_set` stores the voltage, then makes its calls.
* `laserSettingSet_keeps`, `attenSettingSet_keeps`: a set leaves the registers and the attenuator of
  every other channel as they are.
* `distinctDevices_iff`: two names are two devices, except for the pair that shares a number and the
  name that no comparison recognises.
-/

open CLib

namespace Tib

/-! ## Channels -/

/-- The six names. -/
def laserNames : List (List Byte) :=
  [str "1028y", str "1270j", str "1430yj", str "1430hk", str "1510h", str "2330k"]

/-- The bound of seven covers every name, so each comparison is one of whole names. -/
theorem getLaserChannel_eq (name : List Byte) :
    getLaserChannel name =
      if EqNoCase (cstr name) (str "1028y") then laser1028Y
      else if EqNoCase (cstr name) (str "1270j") then laser1270J
      else if EqNoCase (cstr name) (str "1430yj") then laser1430YJ
      else if EqNoCase (cstr name) (str "1510h") then laser1510H
      else if EqNoCase (cstr name) (str "2330k") then laser2330K
      else laserUnknown := by
  have hcmp : ∀ w ∈ laserNames, (strncasecmp name w 7 = 0 ↔ EqNoCase (cstr name) w) := by
    intro w hw
    have hlit : ∀ w ∈ laserNames, (cstr w).length < 7 ∧ cstr w = w := by decide
    rw [strncasecmp_eq_zero (hlit w hw).1, (hlit w hw).2]
  simp only [laserNames, List.mem_cons, List.not_mem_nil, or_false, forall_eq_or_imp,
    forall_eq] at hcmp
  obtain ⟨h1, h2, h3, -, h5, h6⟩ := hcmp
  unfold getLaserChannel
  simp only [h1, h2, h3, h5, h6]
  -- The second comparison with "1430yj" is never reached with success.
  split_ifs <;> rfl

theorem getLaserChannel_congr {a b : List Byte} (h : EqNoCase (cstr a) (cstr b)) :
    getLaserChannel a = getLaserChannel b := by
  have hw (w : List Byte) : EqNoCase (cstr a) w ↔ EqNoCase (cstr b) w :=
    ⟨h.symm.trans, h.trans⟩
  simp only [getLaserChannel_eq, hw]

theorem exists_name {a : List Byte} (h : getLaserChannel a ≠ laserUnknown) :
    ∃ n ∈ laserNames, EqNoCase (cstr a) (cstr n) ∧ getLaserChannel a = getLaserChannel n := by
  have hlit : ∀ n ∈ laserNames, cstr n = n := by decide
  have hn : ∃ n ∈ laserNames, EqNoCase (cstr a) n := by
    by_contra hall
    push Not at hall
    simp only [laserNames, List.mem_cons, List.not_mem_nil, or_false, forall_eq_or_imp,
      forall_eq] at hall
    obtain ⟨h1, h2, h3, -, h5, h6⟩ := hall
    exact h (by rw [getLaserChannel_eq, if_neg h1, if_neg h2, if_neg h3, if_neg h5, if_neg h6])
  obtain ⟨n, hmem, hn⟩ := hn
  rw [← hlit n hmem] at hn
  exact ⟨n, hmem, hn, getLaserChannel_congr hn⟩

/-- The two names are the two that have the same number. -/
def ShareNumber (a b : List Byte) : Prop :=
  (EqNoCase (cstr a) (str "1028y") ∧ EqNoCase (cstr b) (str "1270j")) ∨
  (EqNoCase (cstr a) (str "1270j") ∧ EqNoCase (cstr b) (str "1028y"))

theorem laserNames_share : ∀ n ∈ laserNames, ∀ n' ∈ laserNames,
    getLaserChannel n = getLaserChannel n' → getLaserChannel n ≠ laserUnknown →
    EqNoCase (cstr n) (cstr n') ∨ ShareNumber n n' := by
  unfold ShareNumber
  decide

/-- One number, one name, up to the pair that shares a number. -/
theorem eqNoCase_of_channel {a b : List Byte} (h : getLaserChannel a = getLaserChannel b)
    (hne : getLaserChannel a ≠ laserUnknown) (hs : ¬ ShareNumber a b) :
    EqNoCase (cstr a) (cstr b) := by
  obtain ⟨n, hn, han, hcn⟩ := exists_name hne
  obtain ⟨n', hn', hbn, hcn'⟩ := exists_name (h ▸ hne)
  rcases laserNames_share n hn n' hn' (hcn ▸ hcn' ▸ h) (hcn ▸ hne) with heq | hsn
  · exact (han.trans heq).trans hbn.symm
  · refine absurd ?_ hs
    unfold ShareNumber at hsn ⊢
    exact hsn.imp (fun ⟨x, y⟩ => ⟨han.trans x, hbn.trans y⟩)
      fun ⟨x, y⟩ => ⟨han.trans x, hbn.trans y⟩

theorem ShareNumber.symm {a b : List Byte} (h : ShareNumber a b) : ShareNumber b a :=
  h.elim (fun h => Or.inr ⟨h.2, h.1⟩) fun h => Or.inl ⟨h.2, h.1⟩

theorem ShareNumber.channel {a b : List Byte} (h : ShareNumber a b) :
    getLaserChannel a = laser1028Y := by
  rcases h with ⟨ha, -⟩ | ⟨ha, -⟩
  · exact (getLaserChannel_congr (b := str "1028y") ha).trans (by decide)
  · exact (getLaserChannel_congr (b := str "1270j") ha).trans (by decide)

theorem ShareNumber.not_eqNoCase {a b : List Byte} (h : ShareNumber a b) :
    ¬ EqNoCase (cstr a) (cstr b) := by
  have hne : ¬ EqNoCase (str "1028y") (str "1270j") := by decide
  intro hab
  rcases h with ⟨ha, hb⟩ | ⟨ha, hb⟩
  · exact hne ((ha.symm.trans hab).trans hb)
  · exact hne ((hb.symm.trans hab.symm).trans ha)

/-! ## What a set leaves alone -/

section Frame

variable (env : Env) {cmd : Command} {n : Nat}

/-- What the get handlers read for channel `n`: the registers of the laser driver, and the
attenuator with its voltage and coefficients. -/
def World.reads (n : Nat) (w : World) : (UInt16 → UInt16) × Attenuator :=
  (w.regs n, w.attenuators n)

theorem hwCall_keeps_reads {c : HwCall}
    (hc : ∀ node addr v, c = .modbusWriteHoldingRegs node addr v → n ≠ node) :
    Keeps (World.reads n) (hwCall env c) := by
  refine hwCall_keeps env (fun _ _ => rfl) fun w => ?_
  cases c with
  | modbusWriteHoldingRegs node addr v =>
    exact Prod.ext (Function.update_of_ne (hc node addr v rfl) _ _) rfl
  | _ => rfl

theorem enablePowerAndWait_keeps_reads : Keeps (World.reads n) (enablePowerAndWait env) := by
  have hcall (p : GpioPin) : Keeps (World.reads n) (gpioPinSet env p true) :=
    hwCall_keeps_reads env nofun
  have hget : Keeps (World.reads n) (powerEnabled env) :=
    Keeps.bind (Keeps.bind Keeps.get fun _ => Keeps.bind (hwCall_keeps_reads env nofun) fun _ =>
      Keeps.pure _) fun _ => Keeps.pure _
  unfold enablePowerAndWait enablePower
  refine Keeps.bind (Keeps.bind hget fun on => ?_) fun on => ?_
  · exact Keeps.ite (fun _ => Keeps.pure _) fun _ => Keeps.bind (hcall _) fun _ => Keeps.pure _
  · exact Keeps.ite (fun _ => Keeps.act fun _ => rfl) fun _ => Keeps.pure _

theorem maimanWriteU16_keeps_reads {drv : MaimanDriver} (h : n ≠ drv.nodeId)
    (addr value : UInt16) : Keeps (World.reads n) (maimanWriteU16 env drv addr value) := by
  refine Keeps.bind (hwCall_keeps_reads env fun node _ _ hc => ?_) fun err => ?_
  · cases hc
    exact h
  · exact Keeps.ite (fun _ => Keeps.pure _) fun _ => Keeps.pure _

theorem setAttenuator_reads {i : Nat} (h : n ≠ i) (w : World) (a : Attenuator) :
    (w.setAttenuator i a).reads n = w.reads n :=
  Prod.ext rfl (Function.update_of_ne h _ _)

/-- The attenuator as `attenuator_set` leaves it in memory. -/
def Attenuator.setIn (fl : Rat → Rat) (drv : Attenuator) (value : Rat) (raw : Bool) : Attenuator :=
  { drv with voltage := clampVoltageIn fl (drv.requestedIn fl value raw) }

/-- In exact arithmetic. -/
def Attenuator.set (drv : Attenuator) (value : Rat) (raw : Bool) : Attenuator :=
  drv.setIn id value raw

/-- The rest of `attenuator_set`, after the voltage is stored, for its DAC code. -/
def dacPut (cfg : DacChannelCfg) (code : Nat) : Prog World Bool := do
  if !(← deviceIsReady env .dac7578) then return false
  let err ← dacChannelSetup env cfg
  if err ≠ 0 then return false
  let err ← dacWriteValue env cfg.channelId code
  if err ≠ 0 then return false
  return true

theorem attenuatorSetIn_eq (fl : Rat → Rat) (i : Nat) (value : Rat) (raw : Bool) (w : World) :
    let drv := (w.attenuators i).setIn fl value raw
    attenuatorSetIn fl env i value raw w =
      dacPut env drv.cfg (dacCodeIn fl drv.voltage) (w.setAttenuator i drv) := rfl

theorem attenuatorSet_eq (i : Nat) (value : Rat) (raw : Bool) (w : World) :
    let drv := (w.attenuators i).set value raw
    attenuatorSet env i value raw w =
      dacPut env drv.cfg (dacCode drv.voltage) (w.setAttenuator i drv) := rfl

/-- What the three calls keep, the rest of `attenuator_set` keeps. -/
theorem dacPut_keeps {ρ : Type} {f : World → ρ} (cfg : DacChannelCfg) (code : Nat)
    (hready : Keeps f (hwCall env (.deviceIsReady .dac7578)))
    (hsetup : ∀ ch, Keeps f (hwCall env (.dacChannelSetup ch)))
    (hwrite : ∀ ch code, Keeps f (hwCall env (.dacWriteValue ch code))) :
    Keeps f (dacPut env cfg code) := by
  unfold dacPut
  refine Keeps.bind (Keeps.bind hready fun _ => Keeps.pure _) fun _ => ?_
  refine Keeps.ite (fun _ => Keeps.pure _) fun _ => Keeps.bind (hsetup _) fun _ => ?_
  refine Keeps.ite (fun _ => Keeps.pure _) fun _ => Keeps.bind (hwrite _ _) fun _ => ?_
  exact Keeps.ite (fun _ => Keeps.pure _) fun _ => Keeps.pure _

theorem hwCall_keeps_attenuators (c : HwCall) : Keeps World.attenuators (hwCall env c) :=
  hwCall_keeps env (fun _ _ => rfl) fun w => World.apply_attenuators w c

theorem dacPut_keeps_attenuators (cfg : DacChannelCfg) (code : Nat) :
    Keeps World.attenuators (dacPut env cfg code) :=
  dacPut_keeps env cfg code (hwCall_keeps_attenuators env _)
    (fun _ => hwCall_keeps_attenuators env _) fun _ _ => hwCall_keeps_attenuators env _

theorem attenuatorSet_keeps_reads {i : Nat} (h : n ≠ i) (value : Rat) (raw : Bool) :
    Keeps (World.reads n) (attenuatorSet env i value raw) := by
  intro w
  let drv := (w.attenuators i).set value raw
  have hput := dacPut_keeps env drv.cfg (dacCode drv.voltage)
    (hwCall_keeps_reads (n := n) env nofun) (fun _ => hwCall_keeps_reads env nofun)
    fun _ _ => hwCall_keeps_reads env nofun
  rw [attenuatorSet_eq, hput]
  exact setAttenuator_reads h w _

/-- The channel that a set command addresses, if it addresses one, is not `n`. -/
def Elsewhere (env : Env) (cmd : Command) (n : Nat) : Prop :=
  (keyPair env cmd).rc = 0 →
    getLaserChannel ((keyPair env cmd).name.data.drop 5) ≠ laserUnknown →
    n ≠ getLaserChannel ((keyPair env cmd).name.data.drop 5)

theorem laserSettingSet_keeps (h : Elsewhere env cmd n) :
    Keeps (World.reads n) (laserSettingSet env cmd) := by
  unfold laserSettingSet
  refine Keeps.ite (fun _ => Keeps.pure _) fun hrc => ?_
  refine Keeps.ite (fun _ => Keeps.pure _) fun _ => ?_
  refine Keeps.ite (fun _ => Keeps.pure _) fun hch => ?_
  split
  · exact Keeps.pure _
  · refine Keeps.bind (enablePowerAndWait_keeps_reads env) fun _ => ?_
    refine Keeps.bind (maimanWriteU16_keeps_reads env (h (not_not.mp hrc) hch) _ _) fun _ => ?_
    exact Keeps.ite (fun _ => Keeps.pure _) fun _ => Keeps.pure _

theorem attenSettingSet_keeps (h : Elsewhere env cmd n) :
    Keeps (World.reads n) (attenSettingSet env cmd) := by
  unfold attenSettingSet
  refine Keeps.ite (fun _ => Keeps.pure _) fun hrc => ?_
  refine Keeps.ite (fun _ => Keeps.pure _) fun hch => ?_
  have hn := h (not_not.mp hrc) hch
  have hset (value : Rat) (raw : Bool) : Keeps (World.reads n) (do
      let _ ← attenuatorSet env
        (getLaserChannel ((keyPair env cmd).name.data.drop 5)) value raw
      pure (msgBuilder cmd .respOk okText)) :=
    Keeps.bind (attenuatorSet_keeps_reads env hn value raw) fun _ => Keeps.pure _
  refine Keeps.ite (fun _ => ?_) fun _ => Keeps.ite (fun _ => ?_) fun _ => Keeps.ite (fun _ => ?_)
    fun _ => Keeps.pure _
  · refine Keeps.ite (fun _ => Keeps.pure _) fun _ => Keeps.bind Keeps.get fun w => ?_
    exact Keeps.bind (Keeps.modify fun w => setAttenuator_reads hn w _) fun _ => hset _ _
  · exact Keeps.ite (fun _ => Keeps.pure _) fun _ => hset _ _
  · exact Keeps.ite (fun _ => Keeps.pure _) fun _ => hset _ _

/-- The handlers get the two parts of the key in arrays of 16 bytes, of which they offer 15. -/
theorem keyPair_spec (cmd : Command) :
    SplitSpec cmd.key.data env.nameBuf 15 env.settingBuf 15 (keyPair env cmd) :=
  (splitKeyPair_outcome (by decide) (by decide)).spec

/-- The key of `cmd` addresses the device `a` of a family. -/
def AddressedTo (family a : List Byte) (cmd : Command) : Prop :=
  chr '/' ∉ cstr a ∧ ∃ s, cmd.key.cstr = family ++ cstr a ++ chr '/' :: s

theorem AddressedTo.channel {family a : List Byte} (h : AddressedTo family a cmd)
    (hlen : family.length = 5) (hslash : chr '/' ∉ family) (hrc : (keyPair env cmd).rc = 0) :
    getLaserChannel ((keyPair env cmd).name.data.drop 5) = getLaserChannel a := by
  obtain ⟨ha, s, hkey⟩ := h
  have hname : (keyPair env cmd).name.cstr = family ++ cstr a :=
    ((keyPair_spec env cmd).parts_eq (keyParts_takeWhile hkey (by simp [hslash, ha])) hrc).1
  have hle : 5 ≤ strlen (keyPair env cmd).name.data := by
    have hl : strlen (keyPair env cmd).name.data = family.length + (cstr a).length := by
      rw [← List.length_append]
      exact congrArg List.length hname
    omega
  refine getLaserChannel_congr (congrArg _ ?_)
  rw [cstr_drop hle]
  change (keyPair env cmd).name.cstr.drop 5 = _
  rw [hname, ← hlen, List.drop_left]

end Frame

/-! ## Distinct names, distinct devices -/

/-- For the names `a` and `b`: equal channels mean equal names, `a` is recognised if it is one of
the six names, and no set for `a` changes what a get for `b` reads. -/
structure DistinctDevices (a b : List Byte) : Prop where
  injective : getLaserChannel a = getLaserChannel b → getLaserChannel a ≠ laserUnknown →
    EqNoCase (cstr a) (cstr b)
  recognised : (∃ n ∈ laserNames, EqNoCase (cstr a) n) → getLaserChannel a ≠ laserUnknown
  laser_frame : ¬ EqNoCase (cstr a) (cstr b) → ∀ env cmd, AddressedTo (str "laser") a cmd →
    Keeps (World.reads (getLaserChannel b)) (laserSettingSet env cmd)
  atten_frame : ¬ EqNoCase (cstr a) (cstr b) → ∀ env cmd, AddressedTo (str "atten") a cmd →
    Keeps (World.reads (getLaserChannel b)) (attenSettingSet env cmd)

/-- **Distinct names are distinct devices** exactly when the first name is not `1430hk` and the two
are not `1028y` and `1270j`. -/
theorem distinctDevices_iff (a b : List Byte) :
    DistinctDevices a b ↔ ¬ EqNoCase (cstr a) (str "1430hk") ∧ ¬ ShareNumber a b := by
  constructor
  · intro h
    refine ⟨fun hk => ?_, fun hs => ?_⟩
    · have hunk : getLaserChannel a = laserUnknown :=
        (getLaserChannel_congr (b := str "1430hk") hk).trans (by decide)
      exact h.recognised ⟨_, by simp [laserNames], hk⟩ hunk
    · have hknown : getLaserChannel a ≠ laserUnknown := by
        rw [hs.channel]
        decide
      exact hs.not_eqNoCase (h.injective (hs.channel.trans hs.symm.channel.symm) hknown)
  · rintro ⟨hk, hs⟩
    have helse (env : Env) (cmd : Command) (family : List Byte) (hlen : family.length = 5)
        (hslash : chr '/' ∉ family) (hne : ¬ EqNoCase (cstr a) (cstr b))
        (h : AddressedTo family a cmd) : Elsewhere env cmd (getLaserChannel b) := by
      intro hrc hknown heq
      rw [h.channel env hlen hslash hrc] at hknown heq
      exact hne (eqNoCase_of_channel heq.symm hknown hs)
    refine ⟨fun h hne => eqNoCase_of_channel h hne hs, ?_, fun hne env cmd h => ?_,
      fun hne env cmd h => ?_⟩
    · rintro ⟨n, hn, han⟩
      have hrec : ∀ n ∈ laserNames, n = str "1430hk" ∨
          cstr n = n ∧ getLaserChannel n ≠ laserUnknown := by decide
      rcases hrec n hn with rfl | ⟨hlit, hch⟩
      · exact absurd han hk
      · rw [← hlit] at han
        rwa [getLaserChannel_congr han]
    · exact laserSettingSet_keeps env (helse env cmd _ rfl (by decide) hne h)
    · exact attenSettingSet_keeps env (helse env cmd _ rfl (by decide) hne h)

/-- The lasers `1028y` and `1270j` have one number, and `1430hk` has none. -/
theorem shared_and_missing_number :
    ¬ DistinctDevices (str "1028y") (str "1270j") ∧
      ¬ DistinctDevices (str "1430hk") (str "1510h") := by
  refine ⟨fun h => ?_, fun h => ?_⟩
  · exact absurd (h.injective (by decide) (by decide)) (by decide)
  · exact h.recognised (by decide) (by decide)

end Tib
