import HispecTib.Proofs.Outcomes
import HispecTib.Proofs.Wording

/-!
# Which setting of an attenuator a request is about

The tests of the two attenuator handlers are inverted. `attenSettingGet_eq` and `attenSettingSet_eq`
say which branch a setting takes, and `settings_never_as_named` that it is never the branch that
the setting names.
-/

open CLib

namespace Tib

/-! ## Branches -/

inductive AttenSetting where
  | coeff
  | value
  | valuedb
deriving DecidableEq

/-- The setting that a string names, in any case. -/
def namedSetting (s : List Byte) : Option AttenSetting :=
  if EqNoCase (cstr s) (str "coeff") then some .coeff
  else if EqNoCase (cstr s) (str "value") then some .value
  else if EqNoCase (cstr s) (str "valuedb") then some .valuedb
  else none

/-- The setting whose branch a string takes in the two handlers. -/
def takenSetting (s : List Byte) : AttenSetting :=
  if EqNoCase (cstr s) (str "coeff") then .value else .coeff

section Branches

variable (env : Env) (cmd : Command) (i : Nat)

/-- The branches of `atten_setting_get` for attenuator `i`. -/
def attenGetBranch : Option AttenSetting → Prog World OutMsg
  | some .coeff => do
    let w ← Prog.get
    return msgBuilder cmd .respOk (snprintf maxPayloadLen
      (str "\x7b\"db2volt\":[" ++ coeffText (w.attenuators i).coeffDbToVolt ++
        str "],\"volt2db\":[" ++ coeffText (w.attenuators i).coeffVoltToDb ++ str "]\x7d"))
  | some .value | some .valuedb => do
    let w ← Prog.get
    return msgBuilder cmd .respOk (snprintf maxPayloadLen
      (str "\x7b\"voltage\":" ++ fixed4 (attenuatorGet (w.attenuators i) true) ++
        str ",\"db\":" ++ fixed4 (attenuatorGet (w.attenuators i) false) ++ str "\x7d"))
  | none => return errorReply cmd "Invalid setting"

/-- The two branches of `atten_setting_set` that set a voltage, raw or by the dB polynomial. -/
def attenSetVoltage (raw : Bool) : Prog World OutMsg := do
  let r := parsePayload env cmd (valueDescr .number)
  if r.rc < 0 then return errorReply cmd "Missing setting value"
  let _ ← attenuatorSet env i (r.floatField 0) raw
  return msgBuilder cmd .respOk okText

/-- The branches of `atten_setting_set` for attenuator `i`. -/
def attenSetBranch : Option AttenSetting → Prog World OutMsg
  | some .coeff => do
    let r := parsePayload env cmd coeffDescr
    if r.rc < 0 ∨ (r.floatsField 0).length ≠ 3 ∨ (r.floatsField 1).length ≠ 3 then
      return errorReply cmd "Improper arguments"
    let w ← Prog.get
    let db := attenuatorGet (w.attenuators i) false
    Prog.modify fun w => w.setAttenuator i { w.attenuators i with
      coeffDbToVolt := coeffs (r.floatsField 0)
      coeffVoltToDb := coeffs (r.floatsField 1) }
    let _ ← attenuatorSet env i db false
    return msgBuilder cmd .respOk okText
  | some .value => attenSetVoltage env cmd i true
  | some .valuedb => attenSetVoltage env cmd i false
  | none => return errorReply cmd "Invalid setting"

end Branches

section Settings

variable {env : Env} {cmd : Command}

/-- The attenuator of a key. -/
def attenId (env : Env) (cmd : Command) : Nat :=
  getLaserChannel ((keyPair env cmd).name.data.drop 5)

/-- The setting of a key. -/
def attenSetting (env : Env) (cmd : Command) : List Byte := (keyPair env cmd).setting.data

/-- The test for `coeff` fails on that setting only. -/
theorem coeff_test {s : List Byte} :
    ¬ strcasecmp s (str "coeff") ≠ 0 ↔ EqNoCase (cstr s) (str "coeff") := by
  rw [not_not, strcasecmp_eq_zero]
  rfl

/-- The branch of `atten_setting_get` that is run. -/
theorem attenSettingGet_eq (hkp : (keyPair env cmd).rc = 0)
    (hid : attenId env cmd ≠ laserUnknown) :
    attenSettingGet env cmd =
      attenGetBranch cmd (attenId env cmd) (some (takenSetting (attenSetting env cmd))) := by
  have hid' : getLaserChannel ((keyPair env cmd).name.data.drop 5) ≠ laserUnknown := hid
  unfold attenSettingGet takenSetting attenSetting
  simp only [if_neg (not_not.mpr hkp), if_neg hid']
  by_cases hc : EqNoCase (cstr (keyPair env cmd).setting.data) (str "coeff")
  · have htest := coeff_test.mpr hc
    simp only [if_pos hc, if_neg htest, if_pos (Or.inl (value_ne_of_coeff htest))]
    rfl
  · have htest := not_not.mp (mt coeff_test.mp hc)
    simp only [if_neg hc, if_pos htest]
    rfl

/-- The branch of `atten_setting_set` that is run. -/
theorem attenSettingSet_eq (hkp : (keyPair env cmd).rc = 0)
    (hid : attenId env cmd ≠ laserUnknown) :
    attenSettingSet env cmd =
      attenSetBranch env cmd (attenId env cmd) (some (takenSetting (attenSetting env cmd))) := by
  have hid' : getLaserChannel ((keyPair env cmd).name.data.drop 5) ≠ laserUnknown := hid
  unfold attenSettingSet takenSetting attenSetting
  simp only [if_neg (not_not.mpr hkp), if_neg hid']
  by_cases hc : EqNoCase (cstr (keyPair env cmd).setting.data) (str "coeff")
  · have htest := coeff_test.mpr hc
    simp only [if_pos hc, if_neg htest, if_pos (value_ne_of_coeff htest)]
    rfl
  · have htest := not_not.mp (mt coeff_test.mp hc)
    simp only [if_neg hc, if_pos htest]
    rfl

/-! ## Replies and effects that tell the branches apart -/

/-- The first three characters of a reply of `atten_setting_get`. -/
def getHead : Option AttenSetting → List Byte
  | some .coeff => str "\x7b\"d"
  | some .value | some .valuedb => str "\x7b\"v"
  | none => str "\x7b\"e"

theorem attenGetBranch_head (i : Nat) (setting : Option AttenSetting) (w : World) :
    (attenGetBranch cmd i setting w).val.payload.data.take 3 = getHead setting := by
  have hprint {a rest : List Byte} (h0 : (0 : Byte) ∉ a) (hlen : a.length = 3) :
      (msgBuilder cmd .respOk (snprintf maxPayloadLen (a ++ rest))).payload.data.take 3 = a := by
    have hmax : maxPayloadLen = 256 := rfl
    have hle : a.length ≤ maxPayloadLen - 1 := by omega
    rw [snprintf_append hle, ← hlen, msgBuilder_prefix h0 hle]
  match setting with
  | some .coeff =>
    have hlit : str "\x7b\"db2volt\":[" = str "\x7b\"d" ++ str "b2volt\":[" := by decide
    simp only [attenGetBranch, Prog.bind_run, Prog.get_run, Prog.pure_run, hlit,
      List.append_assoc]
    exact hprint (by decide) (by decide)
  | some .value | some .valuedb =>
    have hlit : str "\x7b\"voltage\":" = str "\x7b\"v" ++ str "oltage\":" := by decide
    simp only [attenGetBranch, Prog.bind_run, Prog.get_run, Prog.pure_run, hlit,
      List.append_assoc]
    exact hprint (by decide) (by decide)
  | none =>
    have hlit : errorText "Invalid setting" =
        str "\x7b\"e" ++ str "rror\":\"Invalid setting\"\x7d" := by decide
    simp only [attenGetBranch, Prog.pure_run, errorReply, hlit]
    exact msgBuilder_prefix (a := str "\x7b\"e") (by decide) (by decide) _ _

/-- The branch that is run never prints as the one that the setting names. -/
theorem getHead_taken_ne (s : List Byte) :
    getHead (some (takenSetting s)) ≠ getHead (namedSetting s) := by
  unfold takenSetting namedSetting
  split_ifs <;> decide

/-- A set of the voltage keeps the coefficients. -/
theorem attenuatorSet_coeffs (env : Env) (i : Nat) (value : Rat) (raw : Bool) (w : World) :
    ((attenuatorSet env i value raw w).post.attenuators i).coeffDbToVolt =
      (w.attenuators i).coeffDbToVolt := by
  let drv := (w.attenuators i).set value raw
  have hput := dacPut_keeps_attenuators env drv.cfg (dacCode drv.voltage) (w.setAttenuator i drv)
  have hstored : (w.setAttenuator i drv).attenuators i = drv := Function.update_self _ _ _
  rw [attenuatorSet_eq, hput, hstored]
  rfl

/-- The error text of each branch of `atten_setting_set`. -/
def setError : Option AttenSetting → String
  | some .coeff => "Improper arguments"
  | some .value | some .valuedb => "Missing setting value"
  | none => "Invalid setting"

/-- The coefficients that a branch leaves when it succeeds. -/
def setCoeffs (env : Env) (cmd : Command) (old : Fin 3 → Rat) : Option AttenSetting → Fin 3 → Rat
  | some .coeff => coeffs ((parsePayload env cmd coeffDescr).floatsField 0)
  | _ => old

/-- A branch of `atten_setting_set` ends with its own error, or it succeeds. -/
theorem attenSetBranch_ends (env : Env) (cmd : Command) (i : Nat)
    (setting : Option AttenSetting) (w : World) :
    let r := attenSetBranch env cmd i setting w
    r.val = errorReply cmd (setError setting) ∨
      r.val = msgBuilder cmd .respOk okText ∧
        (r.post.attenuators i).coeffDbToVolt =
          setCoeffs env cmd (w.attenuators i).coeffDbToVolt setting := by
  have hvoltage (raw : Bool) : let r := attenSetVoltage env cmd i raw w
      r.val = errorReply cmd "Missing setting value" ∨
        r.val = msgBuilder cmd .respOk okText ∧
          (r.post.attenuators i).coeffDbToVolt = (w.attenuators i).coeffDbToVolt := by
    unfold attenSetVoltage
    dsimp only
    split
    · exact Or.inl rfl
    · exact Or.inr ⟨rfl, attenuatorSet_coeffs env i _ raw w⟩
  match setting with
  | some .coeff =>
    unfold attenSetBranch
    dsimp only
    split
    · exact Or.inl rfl
    · refine Or.inr ⟨rfl, (attenuatorSet_coeffs env i _ false _).trans ?_⟩
      simp [setCoeffs]
  | some .value => exact hvoltage true
  | some .valuedb => exact hvoltage false
  | none => exact Or.inl rfl

/-- The errors of the branch that is run and of the one that the setting names differ. -/
theorem setError_taken_ne (s : List Byte) :
    errorReply cmd (setError (some (takenSetting s))) ≠
      errorReply cmd (setError (namedSetting s)) := by
  intro h
  have hpayload (t : Option AttenSetting) :
      (errorReply cmd (setError t)).payload.cstr = cstr (errorText (setError t)) := by
    refine msgBuilder_payload cmd .respError ?_
    match t with
    | some .coeff | some .value | some .valuedb | none => decide
  have heq := congrArg (fun om : OutMsg => om.payload.cstr) h
  simp only [hpayload] at heq
  revert heq
  unfold takenSetting namedSetting
  split_ifs <;> decide

/-- Nor do the coefficients agree, unless the attenuator has those of the payload already. -/
theorem setCoeffs_taken_ne {old : Fin 3 → Rat}
    (hold : old ≠ coeffs ((parsePayload env cmd coeffDescr).floatsField 0)) (s : List Byte)
    (hname : namedSetting s ≠ none) :
    setCoeffs env cmd old (some (takenSetting s)) ≠ setCoeffs env cmd old (namedSetting s) := by
  unfold namedSetting at hname
  unfold takenSetting namedSetting
  split_ifs at hname ⊢
  · exact hold
  · exact hold.symm
  · exact hold.symm
  · exact absurd rfl hname

/-- In every state the reply of `atten_setting_get` is that of the setting named in the key. -/
def GetAsNamed (env : Env) (cmd : Command) : Prop :=
  ∀ w, (attenSettingGet env cmd w).val =
    (attenGetBranch cmd (attenId env cmd) (namedSetting (attenSetting env cmd)) w).val

/-- In every state `atten_setting_set` replies and does what the setting named in the key says. -/
def SetAsNamed (env : Env) (cmd : Command) : Prop :=
  ∀ w, let r := attenSettingSet env cmd w
    let r' := attenSetBranch env cmd (attenId env cmd) (namedSetting (attenSetting env cmd)) w
    r.val = r'.val ∧ r.post = r'.post

theorem not_getAsNamed (hkp : (keyPair env cmd).rc = 0) (hid : attenId env cmd ≠ laserUnknown)
    (w : World) : (attenSettingGet env cmd w).val ≠
      (attenGetBranch cmd (attenId env cmd) (namedSetting (attenSetting env cmd)) w).val := by
  intro h
  rw [attenSettingGet_eq hkp hid] at h
  have hhead := congrArg (fun om : OutMsg => om.payload.data.take 3) h
  simp only [attenGetBranch_head] at hhead
  exact getHead_taken_ne _ hhead

/-- From a state in which the attenuator has other coefficients than the payload. -/
theorem not_setAsNamed (hkp : (keyPair env cmd).rc = 0) (hid : attenId env cmd ≠ laserUnknown)
    {w : World} (hold : (w.attenuators (attenId env cmd)).coeffDbToVolt ≠
      coeffs ((parsePayload env cmd coeffDescr).floatsField 0)) :
    let r := attenSettingSet env cmd w
    let r' := attenSetBranch env cmd (attenId env cmd) (namedSetting (attenSetting env cmd)) w
    ¬ (r.val = r'.val ∧ r.post = r'.post) := by
  rintro r r' ⟨hval, hpost⟩
  have hok (s : String) : msgBuilder cmd .respOk okText ≠ errorReply cmd s := by
    intro h
    have htyp := congrArg OutMsg.msgType h
    cases htyp
  have hr : r = attenSetBranch env cmd (attenId env cmd)
      (some (takenSetting (attenSetting env cmd))) w :=
    congrFun (attenSettingSet_eq hkp hid) w
  have hends := attenSetBranch_ends env cmd (attenId env cmd)
    (some (takenSetting (attenSetting env cmd))) w
  rw [← hr] at hends
  rcases hends with herr | ⟨hok₁, hc₁⟩ <;>
    rcases attenSetBranch_ends env cmd (attenId env cmd) (namedSetting (attenSetting env cmd)) w
      with herr' | ⟨hok₂, hc₂⟩
  · exact setError_taken_ne _ (herr.symm.trans (hval.trans herr'))
  · exact hok _ (hok₂.symm.trans (hval.symm.trans herr))
  · exact hok _ (hok₁.symm.trans (hval.trans herr'))
  · refine setCoeffs_taken_ne hold (attenSetting env cmd) (fun hnone => ?_) (hc₁.symm.trans ?_)
    · rw [hnone] at hok₂
      exact hok _ hok₂.symm
    · rw [← hc₂, hpost]

/-- **The settings are never what they are named.** For every accepted key of an attenuator, the
reply of `atten_setting_get` is that of another setting, whatever the state; and it is not so that
`atten_setting_set` does in every state what the setting names. -/
theorem settings_never_as_named (hkp : (keyPair env cmd).rc = 0)
    (hid : attenId env cmd ≠ laserUnknown) :
    (∀ w, (attenSettingGet env cmd w).val ≠
      (attenGetBranch cmd (attenId env cmd) (namedSetting (attenSetting env cmd)) w).val) ∧
      ¬ GetAsNamed env cmd ∧ ¬ SetAsNamed env cmd := by
  refine ⟨not_getAsNamed hkp hid, fun h => not_getAsNamed hkp hid .boot (h .boot), fun h => ?_⟩
  -- An attenuator whose coefficients are not those of the payload.
  let c := coeffs ((parsePayload env cmd coeffDescr).floatsField 0)
  let w : World := { World.boot with
    attenuators := fun i => { World.boot.attenuators i with coeffDbToVolt := fun j => c j + 1 } }
  have hold : (w.attenuators (attenId env cmd)).coeffDbToVolt ≠ c := by
    intro heq
    have h0 : c 0 + 1 = c 0 := congrFun heq 0
    linarith
  exact not_setAsNamed hkp hid hold (h w)

/-- A request for the value of an attenuator. -/
def valueRequest : Command :=
  { Command.zero with key := (Buf.zero _).write 0 (str "atten1028y/value") }

theorem value_never_as_named : ¬ GetAsNamed quietEnv valueRequest :=
  (settings_never_as_named (by decide) (by decide)).2.1

/-- The value of an attenuator is asked for, and its coefficients come back. -/
theorem value_get_coefficients : ¬ GetAsNamed quietEnv valueRequest ∧
    (attenSettingGet quietEnv valueRequest .boot).val =
      (attenGetBranch valueRequest laser1028Y (some .coeff) .boot).val := by
  have hkp : (keyPair quietEnv valueRequest).rc = 0 := by decide
  have hid : attenId quietEnv valueRequest = laser1028Y := by decide
  have hidne : attenId quietEnv valueRequest ≠ laserUnknown := by decide
  have htaken : takenSetting (attenSetting quietEnv valueRequest) = .coeff := by decide
  refine ⟨fun h => not_getAsNamed hkp hidne .boot (h .boot), ?_⟩
  rw [attenSettingGet_eq hkp hidne, hid, htaken]

end Settings

end Tib
