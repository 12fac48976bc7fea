import HispecTib.Base.Binary32
import HispecTib.Proofs.Attenuators

/-!
# What `attenuator_get` reads back

`attenuator_set` stores the voltage before it looks at the DAC.

* `failed_set_iff`: when a set that fails leaves the voltage alone, and in which runs the stored
  voltage is the one that the DAC accepted last.
* `recalibration_keeps`: a change of the coefficients keeps the attenuation.
-/

open CLib Quantizer

namespace Tib

/-! ## Sets that fail

In the arithmetic `fl` of the code, whatever its operations round to. -/

section Failures

variable (fl : Rat → Rat) (env : Env) (i : Nat)

/-- The voltage that a request asks for: its value or the polynomial, as the code computes it, in
the range of the DAC. -/
def Attenuator.wantedIn (drv : Attenuator) (value : Rat) (raw : Bool) : Rat :=
  clampVoltageIn fl (drv.requestedIn fl value raw)

/-- If the set fails, the voltage is as before. -/
def KeptOnFailure (value : Rat) (raw : Bool) (w : World) : Prop :=
  (attenuatorSetIn fl env i value raw w).val = false →
    ((attenuatorSetIn fl env i value raw w).post.attenuators i).voltage =
      (w.attenuators i).voltage

/-- The three calls succeed for the DAC code of the request. -/
def SetSucceeds (value : Rat) (raw : Bool) (w : World) : Prop :=
  DacTakes env w.trace.length (w.attenuators i).cfg.channelId
    (dacCodeIn fl ((w.attenuators i).wantedIn fl value raw))

/-- The three calls succeed, or the request is for the voltage that is stored already. -/
def SetHarmless (value : Rat) (raw : Bool) (w : World) : Prop :=
  SetSucceeds fl env i value raw w ∨
    (w.attenuators i).wantedIn fl value raw = (w.attenuators i).voltage

instance (value : Rat) (raw : Bool) (w : World) : Decidable (SetSucceeds fl env i value raw w) :=
  inferInstanceAs (Decidable (DacTakes ..))

theorem attenuatorSetIn_val (value : Rat) (raw : Bool) (w : World) :
    (attenuatorSetIn fl env i value raw w).val = decide (SetSucceeds fl env i value raw w) :=
  (attenuatorSetIn_run fl env i value raw w).1

theorem attenuatorSetIn_voltage (value : Rat) (raw : Bool) (w : World) :
    ((attenuatorSetIn fl env i value raw w).post.attenuators i).voltage =
      (w.attenuators i).wantedIn fl value raw := by
  rw [attenuatorSetIn_own]
  rfl

theorem keptOnFailure_iff (value : Rat) (raw : Bool) (w : World) :
    KeptOnFailure fl env i value raw w ↔ SetHarmless fl env i value raw w := by
  unfold KeptOnFailure SetHarmless
  rw [attenuatorSetIn_val, attenuatorSetIn_voltage, decide_eq_false_iff_not, or_iff_not_imp_left]

/-- The arguments of a call of `attenuator_set` on `attenuators[index]`. -/
structure AttenuatorRequest where
  index : Nat
  value : Rat
  raw : Bool

/-- No other attenuator has the channel of attenuator `i`. -/
def OwnChannel (w : World) : Prop :=
  ∀ j < numAttenuators, j ≠ i → (w.attenuators j).cfg.channelId ≠ (w.attenuators i).cfg.channelId

/-- Runs of `attenuator_set`, on any attenuators, from one on attenuator `i` on that succeeds. The
second component is the voltage of the last one on `i` that succeeded. -/
def setRuns : Sys where
  St := World × Rat
  Label := AttenuatorRequest
  start := fun s => ∃ (w : World) (value : Rat) (raw : Bool), OwnChannel i w ∧
    (attenuatorSetIn fl env i value raw w).val = true ∧
    s = ((attenuatorSetIn fl env i value raw w).post, (w.attenuators i).wantedIn fl value raw)
  step := fun s l t => l.index < numAttenuators ∧
    t.1 = (attenuatorSetIn fl env l.index l.value l.raw s.1).post ∧
    t.2 = if l.index = i ∧ (attenuatorSetIn fl env l.index l.value l.raw s.1).val = true then
      (s.1.attenuators i).wantedIn fl l.value l.raw else s.2

/-- `attenuator_get` reports the voltage of the last set that succeeded, and the DAC has its code. -/
structure Reported (s : World × Rat) : Prop where
  get_eq : attenuatorGet (s.1.attenuators i) true = s.2
  dac_eq : s.1.dac (s.1.attenuators i).cfg.channelId = some (dacCodeIn fl s.2)

variable {fl env i}

theorem attenuatorSetIn_channel (fl : Rat → Rat) (env : Env) (j k : Nat) (value : Rat) (raw : Bool)
    (w : World) : ((attenuatorSetIn fl env j value raw w).post.attenuators k).cfg =
      (w.attenuators k).cfg := by
  by_cases hkj : k = j
  · subst hkj
    rw [attenuatorSetIn_own]
    rfl
  · rw [attenuatorSetIn_other fl env j value raw w hkj]

theorem OwnChannel.set {w : World} (h : OwnChannel i w) (fl : Rat → Rat) (env : Env) (j : Nat)
    (value : Rat) (raw : Bool) : OwnChannel i (attenuatorSetIn fl env j value raw w).post := by
  unfold OwnChannel at *
  simpa only [attenuatorSetIn_channel] using h

theorem attenuatorSetIn_dac (fl : Rat → Rat) (env : Env) (i : Nat) (value : Rat) (raw : Bool)
    (w : World) : (attenuatorSetIn fl env i value raw w).post.dac =
      if SetSucceeds fl env i value raw w then
        Function.update w.dac (w.attenuators i).cfg.channelId
          (some (dacCodeIn fl ((w.attenuators i).wantedIn fl value raw)))
      else w.dac :=
  (attenuatorSetIn_run fl env i value raw w).2.2

/-- A set that succeeds is reported. -/
theorem reported_of_success {value : Rat} {raw : Bool} {w : World}
    (h : SetSucceeds fl env i value raw w) : Reported fl i
      ((attenuatorSetIn fl env i value raw w).post, (w.attenuators i).wantedIn fl value raw) := by
  refine ⟨attenuatorSetIn_voltage fl env i value raw w, ?_⟩
  dsimp only
  rw [attenuatorSetIn_dac, if_pos h, attenuatorSetIn_channel]
  exact Function.update_self _ _ _

/-- A set that fails leaves the DAC alone. -/
theorem reported_of_failure_iff {value voltage : Rat} {raw : Bool} {w : World}
    (hw : Reported fl i (w, voltage)) (h : ¬ SetSucceeds fl env i value raw w) :
    Reported fl i ((attenuatorSetIn fl env i value raw w).post, voltage) ↔
      (w.attenuators i).wantedIn fl value raw = voltage := by
  have hget : attenuatorGet ((attenuatorSetIn fl env i value raw w).post.attenuators i) true =
      (w.attenuators i).wantedIn fl value raw := attenuatorSetIn_voltage fl env i value raw w
  refine ⟨fun hr => hget.symm.trans hr.get_eq, fun heq => ⟨hget.trans heq, ?_⟩⟩
  dsimp only
  rw [attenuatorSetIn_dac, if_neg h, attenuatorSetIn_channel]
  exact hw.dac_eq

/-- A set on another attenuator. -/
theorem Reported.other {s : World × Rat} (hs : Reported fl i s) (hown : OwnChannel i s.1) {j : Nat}
    (hj : j < numAttenuators) (hij : j ≠ i) (value : Rat) (raw : Bool) :
    Reported fl i ((attenuatorSetIn fl env j value raw s.1).post, s.2) := by
  have hch : (s.1.attenuators j).cfg.channelId ≠ (s.1.attenuators i).cfg.channelId :=
    hown j hj hij
  constructor <;> dsimp only <;> rw [attenuatorSetIn_other fl env j value raw s.1 (Ne.symm hij)]
  · exact hs.get_eq
  · rw [attenuatorSetIn_dac, ← hs.dac_eq]
    split
    · exact Function.update_of_ne hch.symm _ _
    · rfl

/-- **Steps.** -/
theorem reported_step_iff {s t : World × Rat} {l : AttenuatorRequest} (hown : OwnChannel i s.1)
    (hs : Reported fl i s) (hst : (setRuns fl env i).step s l t) :
    Reported fl i t ↔ (l.index = i → SetHarmless fl env i l.value l.raw s.1) := by
  obtain ⟨v, voltage⟩ := t
  obtain ⟨hlt, hpost, hvolt⟩ := hst
  dsimp only at hpost hvolt
  rw [attenuatorSetIn_val] at hvolt
  subst hpost hvolt
  by_cases hi : l.index = i
  · rw [hi]
    by_cases hdac : SetSucceeds fl env i l.value l.raw s.1
    · simp only [hdac, decide_true, and_self, if_true, forall_const, SetHarmless, true_or, iff_true]
      exact reported_of_success hdac
    · simp only [hdac, decide_false, Bool.false_eq_true, and_false, if_false, forall_const,
        SetHarmless, false_or]
      rw [reported_of_failure_iff hs hdac, ← hs.get_eq]
      rfl
  · rw [if_neg fun h => hi h.1]
    exact iff_of_true (hs.other hown hlt hi l.value l.raw) fun h => absurd h hi

theorem ownChannel_of_reachable {s : World × Rat} (h : (setRuns fl env i).Reachable s) :
    OwnChannel i s.1 := by
  refine h.of_steps (P := fun s : World × Rat => OwnChannel i s.1) ?_ ?_
  · rintro s ⟨w, value, raw, hown, -, rfl⟩
    exact hown.set fl env i value raw
  · rintro s l t hs ⟨-, ht, -⟩
    rw [ht]
    exact hs.set _ _ _ _ _

theorem reported_of_start {s : World × Rat} (h : (setRuns fl env i).start s) : Reported fl i s := by
  obtain ⟨w, value, raw, -, hval, rfl⟩ := h
  rw [attenuatorSetIn_val] at hval
  exact reported_of_success (of_decide_eq_true hval)

theorem setup_channel (w : World) : ∀ {j : Nat}, j < numAttenuators →
    ((setupAttenuators w).post.attenuators j).cfg.channelId = j
  | 0, _ | 1, _ | 2, _ | 3, _ | 4, _ | 5, _ => rfl

/-- After setup, no two attenuators share a channel. -/
theorem setup_ownChannel (w : World) {i : Nat} (hi : i < numAttenuators) :
    OwnChannel i (setupAttenuators w).post := by
  intro j hj hij
  rwa [setup_channel w hj, setup_channel w hi]

/-- **Sets that fail.** A set that fails leaves the voltage as it was exactly when its request is
for that voltage; and a run from a successful set on reports in all its states what the DAC has
exactly when each set succeeds or asks for the stored voltage. -/
theorem failed_set_iff (fl : Rat → Rat) {env : Env} {i : Nat} {s : World × Rat}
    (hs : (setRuns fl env i).start s) :
    (∀ value raw w, KeptOnFailure fl env i value raw w ↔ SetHarmless fl env i value raw w) ∧
    ∀ ls t, (setRuns fl env i).ExecWith (fun _ _ t => Reported fl i t) s ls t ↔
      (setRuns fl env i).ExecWith
        (fun s l _ => l.index = i → SetHarmless fl env i l.value l.raw s.1) s ls t := by
  refine ⟨keptOnFailure_iff fl env i, fun ls t => ?_⟩
  refine Sys.execWith_iff (S := setRuns fl env i) (P := fun s : World × Rat => Reported fl i s) ?_
    hs (reported_of_start hs)
  exact fun s l t hr hrep hst => reported_step_iff (ownChannel_of_reachable hr) hrep hst

/-- Rounding to 53 bits, to nearest and ties to even: a `double` operation whose result is in the
normal range. -/
def roundDouble (q : Rat) : Rat :=
  let ulp := (2 : Rat) ^ (Int.log 2 |q| - 52)
  Binary32.roundEven (q / ulp) * ulp

/-- The state after setup and a set of attenuator 1 to 1 V. -/
def firstSet (env : Env) : World × Rat :=
  ((attenuatorSetIn roundDouble env 1 1 true (setupAttenuators .boot).post).post, 1)

/-- The literal `4.096d`. -/
theorem roundDouble_maxVoltage : roundDouble maxVoltage = 4611686018427388 / 2 ^ 50 := by
  have hlog : Int.log 2 |maxVoltage| = 2 := by
    rw [abs_of_pos maxVoltage_pos, maxVoltage]
    refine le_antisymm (Int.lt_add_one_iff.mp ?_) ?_
    · exact (Int.lt_zpow_iff_log_lt (by decide) (by norm_num)).mp (by norm_num)
    · exact (Int.zpow_le_iff_le_log (by decide) (by norm_num)).mp (by norm_num)
  have hfloor : ⌊maxVoltage / (2 : Rat) ^ ((2 : Int) - 52)⌋ = 4611686018427387 := by
    rw [Int.floor_eq_iff, maxVoltage]
    norm_num
  rw [roundDouble, hlog, Binary32.roundEven, hfloor, maxVoltage]
  norm_num

theorem wantedIn_raw {drv : Attenuator} {v : Rat} (h : 0 ≤ v) (h' : v ≤ 2) :
    drv.wantedIn roundDouble v true = v := by
  have hle : v ≤ roundDouble maxVoltage := by
    rw [roundDouble_maxVoltage]
    exact h'.trans (by norm_num)
  change clampVoltageIn roundDouble v = v
  rw [clampVoltageIn, if_neg (not_lt.mpr h), if_neg (not_lt.mpr hle)]

theorem firstSet_start {env : Env} (h : ∀ n < 3, ∀ c, env.answer n c = 0) :
    (setRuns roundDouble env 1).start (firstSet env) := by
  have hone : (((setupAttenuators .boot).post).attenuators 1).wantedIn roundDouble 1 true = 1 :=
    wantedIn_raw (by norm_num) (by norm_num)
  have hdac : SetSucceeds roundDouble env 1 1 true (setupAttenuators .boot).post :=
    ⟨h 0 (by decide) _, h 1 (by decide) _, h 2 (by decide) _⟩
  refine ⟨(setupAttenuators .boot).post, 1, true, setup_ownChannel .boot (by decide), ?_, ?_⟩
  · rw [attenuatorSetIn_val]
    exact decide_eq_true hdac
  · rw [hone]
    rfl

/-- The first set of a run, on a DAC that always answers. -/
theorem first_set_reported :
    (∀ value raw w, KeptOnFailure roundDouble quietEnv 1 value raw w ↔
      SetHarmless roundDouble quietEnv 1 value raw w) ∧
    ∀ ls t, (setRuns roundDouble quietEnv 1).ExecWith (fun _ _ t => Reported roundDouble 1 t)
        (firstSet quietEnv) ls t ↔
      (setRuns roundDouble quietEnv 1).ExecWith
        (fun s l _ => l.index = 1 → SetHarmless roundDouble quietEnv 1 l.value l.raw s.1)
        (firstSet quietEnv) ls t :=
  failed_set_iff roundDouble (firstSet_start fun _ _ _ => rfl)

/-- A DAC that answers the first three calls. -/
def lostDacEnv : Env := { quietEnv with answer := fun n _ => if n < 3 then 0 else -5 }

/-- The DAC is lost after a set, and `attenuator_get` reports a voltage that it does not have. -/
theorem failed_set_stored : ∃ s, (setRuns roundDouble lostDacEnv 1).start s ∧
    ¬ KeptOnFailure roundDouble lostDacEnv 1 2 true s.1 ∧
    ∃ ls t, (setRuns roundDouble lostDacEnv 1).Exec s ls t ∧ ¬ Reported roundDouble 1 t := by
  have hstart : (setRuns roundDouble lostDacEnv 1).start (firstSet lostDacEnv) :=
    firstSet_start fun n hn c => if_pos hn
  have hstored : ((firstSet lostDacEnv).1.attenuators 1).voltage = 1 :=
    (reported_of_start hstart).get_eq
  have hharm : ¬ SetHarmless roundDouble lostDacEnv 1 2 true (firstSet lostDacEnv).1 := by
    rintro (⟨hready, -⟩ | hsame)
    · exact absurd hready (by decide)
    · rw [hstored, wantedIn_raw (by norm_num) le_rfl] at hsame
      norm_num at hsame
  have hst : (setRuns roundDouble lostDacEnv 1).step (firstSet lostDacEnv) ⟨1, 2, true⟩ (_, _) :=
    ⟨by decide, rfl, rfl⟩
  refine ⟨_, hstart, fun hkept => hharm ((keptOnFailure_iff _ _ _ _ _ _).mp hkept), _, _,
    (Sys.Exec.nil _).snoc hst, fun hrep => ?_⟩
  exact hharm ((reported_step_iff (ownChannel_of_reachable (.start hstart))
    (reported_of_start hstart) hst).mp hrep rfl)

end Failures

/-! ## Recalibration -/

section Recalibration

variable {env : Env} {cmd : Command} {w : World}

/-- The polynomials take the attenuation `d` to a voltage of the DAC and back. -/
structure Attenuator.Inverts (drv : Attenuator) (d : Rat) : Prop where
  nonneg : 0 ≤ quad drv.coeffDbToVolt d
  le_max : quad drv.coeffDbToVolt d ≤ maxVoltage
  back : quad drv.coeffVoltToDb (quad drv.coeffDbToVolt d) = d

theorem Attenuator.Inverts.wanted_eq {drv : Attenuator} {d : Rat} (h : drv.Inverts d) :
    drv.wanted d false = quad drv.coeffDbToVolt d :=
  clamp_eq_self h.nonneg h.le_max

/-- A set in dB is read back, whatever the DAC answers. -/
theorem Attenuator.Inverts.readBack {i : Nat} {d : Rat} (h : (w.attenuators i).Inverts d)
    (env : Env) :
    let drv := (attenuatorSet env i d false w).post.attenuators i
    drv.voltage = quad (w.attenuators i).coeffDbToVolt d ∧ attenuatorGet drv false = d := by
  intro drv
  have hdrv : drv = (w.attenuators i).set d false := attenuatorSet_own env i d false w
  have hvolt : drv.voltage = quad (w.attenuators i).coeffDbToVolt d := by
    rw [hdrv, set_voltage, h.wanted_eq]
  refine ⟨hvolt, ?_⟩
  rw [attenuatorGet_db, hvolt, hdrv]
  exact h.back

/-- The attenuator with the coefficients that the payload of `cmd` gives. -/
def recalibrated (env : Env) (cmd : Command) (drv : Attenuator) : Attenuator :=
  { drv with
    coeffDbToVolt := coeffs ((parsePayload env cmd coeffDescr).floatsField 0)
    coeffVoltToDb := coeffs ((parsePayload env cmd coeffDescr).floatsField 1) }

/-- The key is that of an attenuator and takes the coefficient branch, and the payload has the two
arrays. -/
structure Recalibrates (env : Env) (cmd : Command) (i : Nat) : Prop where
  split : (keyPair env cmd).rc = 0
  id_eq : attenId env cmd = i
  known : i ≠ laserUnknown
  branch : takenSetting (attenSetting env cmd) = .coeff
  parsed : 0 ≤ (parsePayload env cmd coeffDescr).rc
  dbToVolt_length : ((parsePayload env cmd coeffDescr).floatsField 0).length = 3
  voltToDb_length : ((parsePayload env cmd coeffDescr).floatsField 1).length = 3

/-- The coefficient branch: the old reading is set with the new coefficients. -/
theorem Recalibrates.post_eq {i : Nat} (h : Recalibrates env cmd i) (w : World) :
    (attenSettingSet env cmd w).post =
      (attenuatorSet env i (attenuatorGet (w.attenuators i) false) false
        (w.setAttenuator i (recalibrated env cmd (w.attenuators i)))).post := by
  have hid : attenId env cmd ≠ laserUnknown := h.id_eq ▸ h.known
  have hok : ¬ ((parsePayload env cmd coeffDescr).rc < 0 ∨
      ((parsePayload env cmd coeffDescr).floatsField 0).length ≠ 3 ∨
      ((parsePayload env cmd coeffDescr).floatsField 1).length ≠ 3) := by
    have hrc := h.parsed
    simp [h.dbToVolt_length, h.voltToDb_length, hrc]
  rw [attenSettingSet_eq h.split hid, h.branch, h.id_eq]
  simp only [attenSetBranch, if_neg hok, Prog.bind_run, Prog.get_run, Prog.modify_run,
    Prog.pure_run]
  rfl

/-- **Recalibration.** If the new polynomials take the old attenuation `d` to a voltage and back,
the coefficient branch sets that voltage, the attenuation stays `d`, and the DAC gets the code of
the voltage; and a set to any such `d'` after it is read back. -/
theorem recalibration_keeps {i : Nat} (h : Recalibrates env cmd i) (w : World) {d : Rat}
    (hd : quad (w.attenuators i).coeffVoltToDb (w.attenuators i).voltage = d)
    (hnew : (recalibrated env cmd (w.attenuators i)).Inverts d)
    (hdac : DacSucceeds env w.trace.length
      ((recalibrated env cmd (w.attenuators i)).set d false)) :
    let w' := (attenSettingSet env cmd w).post
    let new := recalibrated env cmd (w.attenuators i)
    attenuatorGet (w'.attenuators i) false = d ∧
      (w'.attenuators i).voltage = quad new.coeffDbToVolt d ∧
      w'.dac new.cfg.channelId = some (dacCode (quad new.coeffDbToVolt d)) ∧
      ∀ env' d', new.Inverts d' →
        attenuatorGet ((attenuatorSet env' i d' false w').post.attenuators i) false = d' := by
  intro w' new
  have hget : attenuatorGet (w.attenuators i) false = d := (attenuatorGet_db _).trans hd
  have hpost : w' = (attenuatorSet env i d false (w.setAttenuator i new)).post := by
    rw [← hget]
    exact h.post_eq w
  have hstored : (w.setAttenuator i new).attenuators i = new := Function.update_self _ _ _
  have hnew' : ((w.setAttenuator i new).attenuators i).Inverts d := by rwa [hstored]
  obtain ⟨hvolt, hread⟩ := hnew'.readBack env
  rw [← hpost] at hvolt hread
  rw [hstored] at hvolt
  refine ⟨hread, hvolt, ?_, fun env' d' hd' => ?_⟩
  · have hdac' : DacSucceeds env (w.setAttenuator i new).trace.length
        (((w.setAttenuator i new).attenuators i).set d false) := by
      rw [hstored]
      exact hdac
    have hcode := attenuatorSet_dac hdac'
    rw [hstored, hnew.wanted_eq, ← hpost] at hcode
    rw [hcode]
    exact Function.update_self _ _ _
  · have hdrv : w'.attenuators i = new.set d false := by
      rw [hpost, attenuatorSet_own, hstored]
    have hd'' : (w'.attenuators i).Inverts d' := by
      rw [hdrv]
      exact ⟨hd'.nonneg, hd'.le_max, hd'.back⟩
    exact (hd''.readBack env').2

/-- A request with the identity for both polynomials. -/
def identityRequest : Command := .setOf (str "atten1028y/value")
  (str "\x7b\"msg_type\":\"set\",\"db2volt\":[0,1,0],\"volt2db\":[0,1,0]\x7d")

def identityEnv : Env := { quietEnv with
  jsonObjParse := refuseEmpty fun _ text _ =>
    ⟨3, text, [some (.floats [0, 1, 0]), some (.floats [0, 1, 0])]⟩ }

/-- An attenuator at 1 V, which its old polynomial reads as 2 dB. -/
def calibratedWorld : World :=
  World.boot.setAttenuator 1 ⟨fun _ => 0, coeffs [0, 2, 0], 1, ⟨1, 12, true⟩⟩

theorem identity_inverts {drv : Attenuator} {d : Rat} (h : 0 ≤ d) (h' : d ≤ maxVoltage) :
    (recalibrated identityEnv identityRequest drv).Inverts d := by
  have hquad (x : Rat) : quad (coeffs [0, 1, 0]) x = x := by
    simp [quad, coeffs]
  constructor
  · exact (hquad d).symm ▸ h
  · exact (hquad d).symm ▸ h'
  · exact (hquad _).trans (hquad d)

/-- The voltage becomes 2 V, which the new polynomial reads as 2 dB. -/
theorem two_db_kept :
    let w' := (attenSettingSet identityEnv identityRequest calibratedWorld).post
    let new := recalibrated identityEnv identityRequest (calibratedWorld.attenuators 1)
    attenuatorGet (w'.attenuators 1) false = 2 ∧
      (w'.attenuators 1).voltage = quad new.coeffDbToVolt 2 ∧
      w'.dac new.cfg.channelId = some (dacCode (quad new.coeffDbToVolt 2)) ∧
      ∀ env' d', new.Inverts d' →
        attenuatorGet ((attenuatorSet env' 1 d' false w').post.attenuators 1) false = d' := by
  have hkey : Recalibrates identityEnv identityRequest 1 :=
    ⟨by decide, by decide, by decide, by decide, by decide, rfl, rfl⟩
  refine recalibration_keeps hkey calibratedWorld ?_
    (identity_inverts (by norm_num) (by norm_num [maxVoltage])) ⟨rfl, rfl, rfl⟩
  simp [quad, coeffs, calibratedWorld]

end Recalibration

end Tib
