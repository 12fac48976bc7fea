import HispecTib.Proofs.Dispatch
import HispecTib.Proofs.Intake

/-!
# What replies say

Every reply is built by `msgBuilder` from the command that it answers, from a text that fits in the
payload array. Its type agrees with the text (`Worded`), except for the reply of a successful
`power_set` or `sleep_set` (`Mislabelled`). There is one lemma for each handler, and
`reply_agrees_iff` puts them together.
-/

open CLib

namespace Tib

/-! ## Types and texts -/

section Texts

/-- The member that an error object starts with. -/
def errorMember : List Byte := str "\x7b\"error\":"

/-- The text is an `{"error":...}` object. -/
def IsErrorObject (text : List Byte) : Prop := errorMember <+: text

instance (text : List Byte) : Decidable (IsErrorObject text) :=
  inferInstanceAs (Decidable (errorMember <+: text))

/-- The type agrees with the text, and the text fits in the payload array with its NUL. -/
structure Worded (typ : MsgType) (msg : List Byte) : Prop where
  type_eq : typ = if IsErrorObject msg then .respError else .respOk
  fits : strlen msg < maxPayloadLen

/-- The status text with the type of an error. -/
structure Mislabelled (typ : MsgType) (msg : List Byte) : Prop where
  type_eq : typ = .respError
  msg_eq : msg = okText

/-- The reply is built by `msgBuilder` for `cmd`, from a type and a text with `P`. -/
def AnswersAs (P : MsgType → List Byte → Prop) (cmd : Command) (om : OutMsg) : Prop :=
  ∃ typ msg, P typ msg ∧ om = msgBuilder cmd typ msg

variable {P P' : MsgType → List Byte → Prop} {cmd : Command} {om : OutMsg}

theorem AnswersAs.mono (h : AnswersAs P cmd om) (hP : ∀ typ msg, P typ msg → P' typ msg) :
    AnswersAs P' cmd om := by
  obtain ⟨typ, msg, hp, rfl⟩ := h
  exact ⟨typ, msg, hP _ _ hp, rfl⟩

theorem strlen_snprintf_lt (text : List Byte) :
    strlen (snprintf maxPayloadLen text) < maxPayloadLen := by
  have hlen : (snprintf maxPayloadLen text).length ≤ maxPayloadLen - 1 := List.length_take_le _ _
  exact Nat.lt_of_le_of_lt (strlen_le _) (Nat.lt_of_le_of_lt hlen (by decide))

theorem str_length (s : String) : (str s).length = s.length := by
  rw [str, List.length_map, String.length_toList]

theorem worded_error {s : String} (hs : s.length < 200) : Worded .respError (errorText s) := by
  have hpre : IsErrorObject (errorText s) := by
    have hopen : errorMember <+: str "\x7b\"error\":\"" := by decide
    unfold IsErrorObject errorText
    rw [List.append_assoc]
    exact hopen.trans (List.prefix_append _ _)
  have hlen : (errorText s).length < maxPayloadLen := by
    have h₁ : (str "\x7b\"error\":\"").length = 10 := by decide
    have h₂ : (str "\"\x7d").length = 2 := by decide
    rw [errorText, List.length_append, List.length_append, str_length s, h₁, h₂]
    exact Nat.lt_of_lt_of_le (show 10 + s.length + 2 < 212 by omega) (by decide)
  exact ⟨(if_pos hpre).symm, Nat.lt_of_le_of_lt (strlen_le _) hlen⟩

/-- A text that starts with `p` is not an error object. -/
structure Plain (p : List Byte) : Prop where
  short : p.length < maxPayloadLen
  diverges : ¬ p <+: errorMember ∧ ¬ errorMember <+: p

theorem Plain.not_error {p text : List Byte} (h : Plain p) (hp : p <+: text) :
    ¬ IsErrorObject text := by
  intro he
  rcases List.prefix_or_prefix_of_prefix hp he with h' | h'
  · exact h.diverges.1 h'
  · exact h.diverges.2 h'

theorem prefix_snprintf {p text : List Byte} {size : Nat} (hp : p <+: text)
    (hlen : p.length < size) : p <+: snprintf size text := by
  rw [snprintf, List.prefix_take_iff]
  exact ⟨hp, by omega⟩

/-- A print behind an opening that no error object has. -/
theorem worded_print {p text : List Byte} (h : Plain p) (hp : p <+: text) :
    Worded .respOk (snprintf maxPayloadLen text) :=
  ⟨(if_neg (h.not_error (prefix_snprintf hp h.short))).symm, strlen_snprintf_lt text⟩

theorem worded_okText : Worded .respOk okText :=
  ⟨by decide, by decide⟩

end Texts

/-! ## The printed texts -/

section Prints

/-- No register has the name of the error member. -/
theorem setting_not_error {setting : List Byte} {addr : UInt16}
    (h : maimanGetRegisterAddress setting = some addr) (rest : List Byte) :
    ¬ IsErrorObject (str "\x7b\"" ++ cstr setting ++ str "\":" ++ rest) := by
  obtain ⟨r, hfind, -⟩ := Option.map_eq_some_iff.mp h
  obtain ⟨hcstr, -, ⟨-, hquote⟩, herror⟩ :=
    registerTable_names r (List.mem_of_find?_eq_some hfind)
  rw [← hcstr] at hquote herror
  have hname : EqNoCase (cstr setting) (cstr r.name) :=
    (strcaseeq_iff _ _).mp (by simpa using List.find?_some hfind)
  have hq : chr '"' ∉ cstr setting := by
    intro hmem
    refine hquote (hname ▸ List.mem_map.mpr ⟨_, hmem, ?_⟩)
    decide
  -- Behind the opening, both texts are a name up to the next quote.
  intro hpre
  have hsplit : errorMember = str "\x7b\"" ++ (str "error" ++ chr '"' :: str ":") := by
    decide
  have hcolon : str "\":" = chr '"' :: str ":" := by decide
  have hnames : str "error" ++ chr '"' :: str ":" <+:
      cstr setting ++ chr '"' :: (str ":" ++ rest) := by
    rw [IsErrorObject, hsplit, hcolon] at hpre
    simpa only [List.append_assoc, List.cons_append, List.prefix_append_right_inj] using hpre
  obtain ⟨hword, -⟩ := prefix_of_append_cons (by decide) hq hnames
  exact herror (hword ▸ hname)

theorem appendText_some {size : Nat} {buf text buf' : List Byte}
    (h : appendText size buf text = some buf') (hlt : buf.length < size) :
    buf <+: buf' ∧ buf'.length < size := by
  unfold appendText at h
  split_ifs at h with hfull
  obtain rfl := Option.some.inj h
  exact ⟨List.prefix_append _ _, by rw [List.length_append]; omega⟩

/-- The loop only appends, and never past the end of the buffer. -/
theorem appendRoutes_some {size : Nat} {keys : List MemsRouteKey} {first : Bool}
    {buf buf' : List Byte} (h : appendRoutes size keys first buf = some buf')
    (hlt : buf.length < size) : buf <+: buf' ∧ buf'.length < size := by
  induction keys generalizing first buf with
  | nil =>
    obtain rfl := Option.some.inj h
    exact ⟨List.prefix_rfl, hlt⟩
  | cons key keys ih =>
    have hentry {buf : List Byte} (hlt : buf.length < size)
        (h : (appendText size buf (str "\"" ++ cstr key.inputName ++ str "\":\"" ++
          cstr key.outputName ++ str "\"")).bind (appendRoutes size keys false) = some buf') :
        buf <+: buf' ∧ buf'.length < size := by
      obtain ⟨buf₁, htext, hrest⟩ := Option.bind_eq_some_iff.mp h
      obtain ⟨hpre₁, hlt₁⟩ := appendText_some htext hlt
      obtain ⟨hpre, hlt'⟩ := ih hrest hlt₁
      exact ⟨hpre₁.trans hpre, hlt'⟩
    cases first with
    | true => exact hentry hlt h
    | false =>
      obtain ⟨buf₁, hcomma, hrest⟩ := Option.bind_eq_some_iff.mp h
      obtain ⟨hpre₁, hlt₁⟩ := appendText_some hcomma hlt
      obtain ⟨hpre, hlt'⟩ := hentry hlt₁ hrest
      exact ⟨hpre₁.trans hpre, hlt'⟩

/-- The report of the active routes, if it fits. -/
theorem worded_report {keys : List MemsRouteKey} {buf : List Byte}
    (h : (do
      let buf ← appendRoutes maxPayloadLen keys true (str "\x7b\"active_routes\":\x7b")
      appendText maxPayloadLen buf (str "\x7d\x7d")) = some buf) : Worded .respOk buf := by
  have hplain : Plain (str "\x7b\"active_routes\":\x7b") :=
    ⟨by decide, by decide⟩
  obtain ⟨buf₁, hroutes, hclose⟩ := Option.bind_eq_some_iff.mp h
  obtain ⟨hpre₁, hlt₁⟩ := appendRoutes_some hroutes hplain.short
  obtain ⟨hpre, hlt⟩ := appendText_some hclose hlt₁
  exact ⟨(if_neg (hplain.not_error (hpre₁.trans hpre))).symm,
    Nat.lt_of_le_of_lt (strlen_le buf) hlt⟩

end Prints

/-! ## The replies of the handlers -/

section Handlers

variable (env : Env) (cmd : Command)

variable {cmd} in
theorem yields_worded {typ : MsgType} {msg : List Byte} (h : Worded typ msg) :
    Yields (pure (msgBuilder cmd typ msg) : Prog World OutMsg) (AnswersAs Worded cmd) :=
  Yields.pure ⟨typ, msg, h, rfl⟩

theorem yields_errorReply {s : String} (hs : s.length < 200) :
    Yields (pure (errorReply cmd s) : Prog World OutMsg) (AnswersAs Worded cmd) :=
  yields_worded (worded_error hs)

variable {cmd} in
theorem yields_print {p text : List Byte} (h : Plain p) (hp : p <+: text) :
    Yields (pure (msgBuilder cmd .respOk (snprintf maxPayloadLen text)) : Prog World OutMsg)
      (AnswersAs Worded cmd) :=
  yields_worded (worded_print h hp)

theorem yields_okText :
    Yields (pure (msgBuilder cmd .respOk okText) : Prog World OutMsg) (AnswersAs Worded cmd) :=
  yields_worded worded_okText

theorem memsrouteGet_worded : Yields (memsrouteGet cmd) (AnswersAs Worded cmd) := by
  unfold memsrouteGet
  refine Yields.bind fun w => ?_
  dsimp only
  split
  · exact yields_errorReply cmd (by decide)
  · rename_i buf htext
    exact yields_worded (worded_report htext)

theorem worded_stepError (name rest : List Byte) : Worded .respError
    (snprintf maxPayloadLen (str "\x7b\"error\":\"Setting switch " ++ name ++ rest)) := by
  have hopen : errorMember <+: str "\x7b\"error\":\"Setting switch " := by decide
  have hpre : IsErrorObject
      (snprintf maxPayloadLen (str "\x7b\"error\":\"Setting switch " ++ name ++ rest)) := by
    refine prefix_snprintf ?_ (by decide)
    rw [List.append_assoc]
    exact hopen.trans (List.prefix_append _ _)
  exact ⟨(if_pos hpre).symm, strlen_snprintf_lt _⟩

theorem memsrouteStep_worded (step : MemsRouteStep) :
    Yields (memsrouteStep env cmd step) fun r => ∀ om ∈ r, AnswersAs Worded cmd om := by
  have hsome {typ : MsgType} {msg : List Byte} (h : Worded typ msg) :
      ∀ om ∈ some (msgBuilder cmd typ msg), AnswersAs Worded cmd om :=
    fun om hom => ⟨typ, msg, h, (Option.mem_some_iff.mp hom).symm⟩
  unfold memsrouteStep
  refine Yields.bind fun w => ?_
  split
  · exact Yields.pure (hsome (worded_error (by decide)))
  · refine Yields.bind fun rc => ?_
    refine Yields.ite (fun _ => Yields.pure (hsome ?_)) fun _ => Yields.pure fun om h => by cases h
    simp only [List.append_assoc (str "\x7b\"error\":\"Setting switch " ++ cstr step.switchName)]
    exact worded_stepError _ _

theorem memsrouteSet_worded : Yields (memsrouteSet env cmd) (AnswersAs Worded cmd) := by
  unfold memsrouteSet
  refine Yields.ite (fun _ => yields_errorReply cmd (by decide)) fun _ => Yields.bind fun w => ?_
  split
  · exact yields_errorReply cmd (by decide)
  · refine Yields.bind' (Yields.firstSome fun step _ => memsrouteStep_worded env cmd step)
      fun r hr => ?_
    split
    · exact Yields.pure (hr _ rfl)
    · exact yields_okText cmd

theorem memsGet_worded : Yields (memsGet env cmd) (AnswersAs Worded cmd) := by
  have hplain : Plain (str "\x7b\"value\":\"") := ⟨by decide, by decide⟩
  unfold memsGet
  refine Yields.ite (fun _ => yields_errorReply cmd (by decide)) fun _ => Yields.bind fun w => ?_
  split
  · exact yields_errorReply cmd (by decide)
  · refine yields_print hplain ?_
    rw [List.append_assoc]
    exact List.prefix_append _ _

theorem memsSet_worded : Yields (memsSet env cmd) (AnswersAs Worded cmd) := by
  unfold memsSet
  refine Yields.ite (fun _ => yields_errorReply cmd (by decide)) fun _ => ?_
  refine Yields.ite (fun _ => yields_errorReply cmd (by decide)) fun _ => Yields.bind fun w => ?_
  split
  · exact yields_errorReply cmd (by decide)
  · refine Yields.bind fun rc => ?_
    exact Yields.ite (fun _ => yields_errorReply cmd (by decide)) fun _ => yields_okText cmd

theorem laserSettingGet_worded : Yields (laserSettingGet env cmd) (AnswersAs Worded cmd) := by
  unfold laserSettingGet
  refine Yields.ite (fun _ => yields_errorReply cmd (by decide)) fun _ => ?_
  refine Yields.ite (fun _ => yields_errorReply cmd (by decide)) fun _ => ?_
  split
  · exact yields_errorReply cmd (by decide)
  · rename_i addr haddr
    refine Yields.bind fun _ => Yields.bind fun r => ?_
    refine Yields.ite (fun _ => yields_errorReply cmd (by decide)) fun _ => ?_
    refine yields_worded ⟨(if_neg fun he => ?_).symm, strlen_snprintf_lt _⟩
    have hfull := he.trans (List.take_prefix _ _)
    rw [List.append_assoc _ (decimalInt _)] at hfull
    exact setting_not_error haddr _ hfull

theorem laserSettingSet_worded : Yields (laserSettingSet env cmd) (AnswersAs Worded cmd) := by
  unfold laserSettingSet
  refine Yields.ite (fun _ => yields_errorReply cmd (by decide)) fun _ => ?_
  refine Yields.ite (fun _ => yields_errorReply cmd (by decide)) fun _ => ?_
  refine Yields.ite (fun _ => yields_errorReply cmd (by decide)) fun _ => ?_
  split
  · exact yields_errorReply cmd (by decide)
  · refine Yields.bind fun _ => Yields.bind fun ok => ?_
    exact Yields.ite (fun _ => yields_errorReply cmd (by decide)) fun _ => yields_okText cmd

theorem attenSettingGet_worded : Yields (attenSettingGet env cmd) (AnswersAs Worded cmd) := by
  have hcoeff : Plain (str "\x7b\"db2volt\":[") := ⟨by decide, by decide⟩
  have hvoltage : Plain (str "\x7b\"voltage\":") := ⟨by decide, by decide⟩
  unfold attenSettingGet
  refine Yields.ite (fun _ => yields_errorReply cmd (by decide)) fun _ => ?_
  refine Yields.ite (fun _ => yields_errorReply cmd (by decide)) fun _ => Yields.bind fun w => ?_
  refine Yields.ite (fun _ => ?_) fun _ => ?_
  · refine yields_print hcoeff ?_
    simp only [List.append_assoc]
    exact List.prefix_append _ _
  · refine Yields.ite (fun _ => ?_) fun _ => yields_errorReply cmd (by decide)
    refine yields_print hvoltage ?_
    simp only [List.append_assoc]
    exact List.prefix_append _ _

theorem attenSettingSet_worded : Yields (attenSettingSet env cmd) (AnswersAs Worded cmd) := by
  have hset (r : JsonResult) (x : Prog World Bool) : Yields
      (if r.rc < 0 then pure (errorReply cmd "Missing setting value") else do
        let _ ← x
        pure (msgBuilder cmd .respOk okText)) (AnswersAs Worded cmd) :=
    Yields.ite (fun _ => yields_errorReply cmd (by decide)) fun _ =>
      Yields.bind fun _ => yields_okText cmd
  unfold attenSettingSet
  refine Yields.ite (fun _ => yields_errorReply cmd (by decide)) fun _ => ?_
  refine Yields.ite (fun _ => yields_errorReply cmd (by decide)) fun _ => ?_
  refine Yields.ite (fun _ => ?_) fun _ => ?_
  · refine Yields.ite (fun _ => yields_errorReply cmd (by decide)) fun _ => ?_
    exact Yields.bind fun w => Yields.bind fun _ => Yields.bind fun _ => yields_okText cmd
  · refine Yields.ite (fun _ => hset _ _) fun _ => ?_
    exact Yields.ite (fun _ => hset _ _) fun _ => yields_errorReply cmd (by decide)

theorem powerReport_worded : Yields (powerReport env cmd) (AnswersAs Worded cmd) := by
  have hplain : Plain (str "\x7b\"power\":") := ⟨by decide, by decide⟩
  refine Yields.bind fun on => yields_print hplain ?_
  rw [List.append_assoc]
  exact List.prefix_append _ _

/-- The two handlers whose confirmation has the type of an error. -/
def DispatchFunc.switchesPower : DispatchFunc → Bool
  | .powerSet | .sleepSet => true
  | _ => false

theorem DispatchFunc.worded {func : DispatchFunc} (h : func.switchesPower = false) :
    Yields (func.run env cmd) (AnswersAs Worded cmd) := by
  cases func with
  | memsrouteGet => exact memsrouteGet_worded cmd
  | memsrouteSet => exact memsrouteSet_worded env cmd
  | memsGet => exact memsGet_worded env cmd
  | memsSet => exact memsSet_worded env cmd
  | laserSettingGet => exact laserSettingGet_worded env cmd
  | laserSettingSet => exact laserSettingSet_worded env cmd
  | powerGet => exact powerReport_worded env cmd
  | powerSet => cases h
  | attenSettingGet => exact attenSettingGet_worded env cmd
  | attenSettingSet => exact attenSettingSet_worded env cmd
  | statusGet => exact powerReport_worded env cmd
  | sleepSet => cases h

/-- What `power_set` and `sleep_set` have in common. -/
theorem switching_refused {func : DispatchFunc} (h : func.switchesPower = true)
    (hrc : (parsePayload env cmd (valueDescr .true_)).rc < 0) :
    Yields (func.run env cmd) (AnswersAs Worded cmd) := by
  have hreply : Yields (pure (errorReply cmd "Missing setting value") : Prog World OutMsg)
      (AnswersAs Worded cmd) := yields_errorReply cmd (by decide)
  cases func with
  | powerSet =>
    change Yields (powerSet env cmd) _
    unfold powerSet
    exact Yields.ite (fun _ => hreply) fun h => absurd hrc h
  | sleepSet =>
    change Yields (sleepSet env cmd) _
    unfold sleepSet
    exact Yields.ite (fun _ => hreply) fun h => absurd hrc h
  | _ => cases h

theorem switching_confirmed {func : DispatchFunc} (h : func.switchesPower = true)
    (hrc : 0 ≤ (parsePayload env cmd (valueDescr .true_)).rc) :
    Yields (func.run env cmd) (AnswersAs Mislabelled cmd) := by
  have hreply {β : Type} (x : Prog World β) :
      Yields (do let _ ← x; pure (msgBuilder cmd .respError okText)) (AnswersAs Mislabelled cmd) :=
    Yields.bind fun _ => Yields.pure ⟨_, _, ⟨rfl, rfl⟩, rfl⟩
  have hno : ¬ (parsePayload env cmd (valueDescr .true_)).rc < 0 := not_lt.mpr hrc
  cases func with
  | powerSet =>
    change Yields (powerSet env cmd) _
    unfold powerSet
    refine Yields.ite (fun h => absurd h hno) fun _ => ?_
    exact Yields.ite (fun _ => hreply _) fun _ => hreply _
  | sleepSet =>
    change Yields (sleepSet env cmd) _
    unfold sleepSet
    refine Yields.ite (fun h => absurd h hno) fun _ => ?_
    exact Yields.ite (fun _ => hreply _) fun _ => hreply _
  | _ => cases h

end Handlers

/-! ## Dispatch -/

section Dispatch

variable (env : Env) (cmd : Command)

/-- The keys of the two handlers. -/
def switchingKeys : List (List Byte) := [str "power", str "sleep"]

/-- The command is a set of the power or of sleep, with a payload that parses. -/
def ConfirmsSwitching : Prop :=
  cmd.msgType = .set ∧ cmd.key.cstr ∈ switchingKeys ∧
    0 ≤ (parsePayload env cmd (valueDescr .true_)).rc

/-- Only a set of one of the two keys runs one of the two handlers. -/
theorem dispatchTable_switching : ∀ e ∈ dispatchTable,
    (∀ func ∈ e.getHandler, func.switchesPower = false) ∧
      ∀ func ∈ e.setHandler, func.switchesPower = true ↔ cstr e.key ∈ switchingKeys := by
  decide

theorem switchingKeys_found : ∀ key ∈ switchingKeys, ∃ e func, findDispatch key = some e ∧
    e.setHandler = some func ∧ func.switchesPower = true := by
  intro key hkey
  simp only [switchingKeys, List.mem_cons, List.not_mem_nil, or_false] at hkey
  rcases hkey with rfl | rfl <;> exact ⟨_, _, rfl, rfl, rfl⟩

variable {cmd}

theorem dispatch_switching (hset : cmd.msgType = .set) (hkey : cmd.key.cstr ∈ switchingKeys) :
    ∃ func : DispatchFunc, func.switchesPower = true ∧ dispatch env cmd = func.run env cmd := by
  obtain ⟨e, func, hfind, hfunc, hsw⟩ := switchingKeys_found _ hkey
  have hfind' : findDispatch cmd.key.data = some e := by
    rw [← hfind]
    exact findDispatch_congr (cstr_cstr _).symm
  refine ⟨func, hsw, ?_⟩
  rw [dispatch, dispatchCommand_of_some hfind', callSelected, if_pos hset, hfunc]

theorem dispatch_other (h : ¬ (cmd.msgType = .set ∧ cmd.key.cstr ∈ switchingKeys)) :
    Yields (dispatch env cmd) (AnswersAs Worded cmd) := by
  cases hfind : findDispatch cmd.key.data with
  | none =>
    rw [dispatch, dispatchCommand_of_none hfind]
    exact yields_errorReply cmd (by decide)
  | some e =>
    obtain ⟨hmem, hkey⟩ := findDispatch_eq_some hfind
    obtain ⟨hget, hset⟩ := dispatchTable_switching e hmem
    rw [dispatch, dispatchCommand_of_some hfind, callSelected]
    split
    · exact yields_errorReply cmd (by decide)
    · rename_i func hfunc
      refine DispatchFunc.worded env cmd ?_
      by_cases htyp : cmd.msgType = .set
      · rw [if_pos htyp] at hfunc
        have hnot : cstr e.key ∉ switchingKeys := hkey ▸ fun hk => h ⟨htyp, hk⟩
        simpa using mt (hset func hfunc).mp hnot
      · rw [if_neg htyp] at hfunc
        exact hget func hfunc

theorem dispatch_worded (h : ¬ ConfirmsSwitching env cmd) :
    Yields (dispatch env cmd) (AnswersAs Worded cmd) := by
  by_cases hs : cmd.msgType = .set ∧ cmd.key.cstr ∈ switchingKeys
  · obtain ⟨func, hsw, hrun⟩ := dispatch_switching env hs.1 hs.2
    rw [hrun]
    exact switching_refused env cmd hsw (not_le.mp fun hrc => h ⟨hs.1, hs.2, hrc⟩)
  · exact dispatch_other env hs

theorem dispatch_mislabelled (h : ConfirmsSwitching env cmd) :
    Yields (dispatch env cmd) (AnswersAs Mislabelled cmd) := by
  obtain ⟨hset, hkey, hrc⟩ := h
  obtain ⟨func, hsw, hrun⟩ := dispatch_switching env hset hkey
  rw [hrun]
  exact switching_confirmed env cmd hsw hrc

/-- Whatever the reply, its text fits in the payload array. -/
theorem dispatch_fits (env : Env) (cmd : Command) : Yields (dispatch env cmd)
    (AnswersAs (fun _ msg => strlen msg < maxPayloadLen) cmd) := by
  intro w
  by_cases h : ConfirmsSwitching env cmd
  · refine (dispatch_mislabelled env h w).mono fun typ msg hm => ?_
    rw [hm.msg_eq]
    exact worded_okText.fits
  · exact (dispatch_worded env h w).mono fun typ msg hm => hm.fits

/-- The message type is that of an error exactly for an error object. -/
def Agrees (om : OutMsg) : Prop :=
  om.msgType = if IsErrorObject om.payload.cstr then .respError else .respOk

theorem msgBuilder_payload (cmd : Command) (typ : MsgType) {msg : List Byte}
    (h : strlen msg < maxPayloadLen) : (msgBuilder cmd typ msg).payload.cstr = cstr msg := by
  have hz : cstr ((Buf.zero maxPayloadLen).data.drop (maxPayloadLen - 1)) = [] :=
    Buf.zero_drop_cstr _ _
  rw [msgBuilder, Buf.cstr_strncpy _ _ (Nat.sub_le _ _) hz]
  exact List.take_of_length_le (Nat.le_pred_of_lt h)

/-- The first NUL of a text comes behind the member of an error object. -/
theorem isErrorObject_cstr (msg : List Byte) : IsErrorObject (cstr msg) ↔ IsErrorObject msg := by
  constructor
  · exact fun h => h.trans (cstr_prefixOf msg)
  · rintro ⟨rest, rfl⟩
    have h0 : (0 : Byte) ∉ errorMember := by decide
    rw [cstr_append h0]
    exact List.prefix_append _ _

theorem AnswersAs.not_agrees {om : OutMsg} (h : AnswersAs Mislabelled cmd om) : ¬ Agrees om := by
  obtain ⟨typ, msg, hm, rfl⟩ := h
  intro ha
  rw [Agrees, hm.msg_eq, msgBuilder_payload cmd typ worded_okText.fits,
    if_neg (by decide)] at ha
  have htyp : typ = .respOk := ha
  rw [hm.type_eq] at htyp
  cases htyp

theorem AnswersAs.agrees {om : OutMsg} (h : AnswersAs Worded cmd om) : Agrees om := by
  obtain ⟨typ, msg, hm, rfl⟩ := h
  rw [Agrees, msgBuilder_payload cmd typ hm.fits]
  simp only [isErrorObject_cstr]
  exact hm.type_eq

/-- **Types and texts.** The type of a reply agrees with its payload unless the reply confirms a set
of the power or of sleep. -/
theorem reply_agrees_iff (env : Env) (cmd : Command) (w : World) :
    Agrees (dispatch env cmd w).val ↔ ¬ ConfirmsSwitching env cmd := by
  constructor
  · intro ha hs
    exact (dispatch_mislabelled env hs w).not_agrees ha
  · intro hs
    exact (dispatch_worded env hs w).agrees

/-- A set of the power, and a parser that decodes it. -/
def powerCommand : Command :=
  .setOf (str "power") (str "\x7b\"msg_type\":\"set\",\"value\":true\x7d")

def trueEnv : Env :=
  { setEnv with jsonObjParse := refuseEmpty fun _ text _ => ⟨1, text, [some (.bool true)]⟩ }

/-- The status of a successful set of the power has the type of an error. -/
theorem power_mislabelled : ¬ Agrees (dispatch trueEnv powerCommand .boot).val := by
  have hs : ConfirmsSwitching trueEnv powerCommand :=
    ⟨rfl, by decide, by decide⟩
  exact (dispatch_mislabelled trueEnv hs .boot).not_agrees

end Dispatch

end Tib
