import HispecTib.Proofs.Messages

/-!
# The texts of replies

`ReplyText` lists the texts that the firmware replies with: errors, the status text, the report of
the routes, and prints that start with one of a few members or with the name of a laser register.

* `dispatch_text`, `rejection_text`: every reply has one of these texts.
* `ReplyText.not_opening`: no text of a reply starts with a member of another name.
-/

open CLib

namespace Tib

/-! ## The texts -/

/-- The starts of the prints whose member has a fixed name. -/
def openings : List (List Byte) := [str "\x7b\"value\":", str "\x7b\"db2volt\":",
  str "\x7b\"voltage\":", str "\x7b\"power\":"]

inductive ReplyText : List Byte → Prop
  | error (s : String) (hs : s.length < 200) : ReplyText (errorText s)
  | stepError (rest : List Byte) :
      ReplyText (snprintf maxPayloadLen (str "\x7b\"error\":\"Setting switch " ++ rest))
  | ok : ReplyText okText
  | report {keys : List MemsRouteKey} {text : List Byte}
      (h : (do
        let buf ← appendRoutes maxPayloadLen keys true (str "\x7b\"active_routes\":\x7b")
        appendText maxPayloadLen buf (str "\x7d\x7d")) = some text) : ReplyText text
  | print {opening text : List Byte} (hopen : opening ∈ openings) (h : opening <+: text) :
      ReplyText (snprintf maxPayloadLen text)
  | register {setting : List Byte} {addr : UInt16}
      (h : maimanGetRegisterAddress setting = some addr) (rest : List Byte) :
      ReplyText (snprintf maxPayloadLen (str "\x7b\"" ++ cstr setting ++ str "\":" ++ rest))

/-- The report starts as its buffer was opened, and it fits. -/
theorem report_starts {keys : List MemsRouteKey} {text : List Byte}
    (h : (do
      let buf ← appendRoutes maxPayloadLen keys true (str "\x7b\"active_routes\":\x7b")
      appendText maxPayloadLen buf (str "\x7d\x7d")) = some text) :
    str "\x7b\"active_routes\":\x7b" <+: text ∧ text.length < maxPayloadLen := by
  obtain ⟨buf, hroutes, hclose⟩ := Option.bind_eq_some_iff.mp h
  obtain ⟨hpre, hlt⟩ := appendRoutes_some hroutes (by decide)
  obtain ⟨hpre', hlt'⟩ := appendText_some hclose hlt
  exact ⟨hpre.trans hpre', hlt'⟩

theorem ReplyText.fits {text : List Byte} (h : ReplyText text) : strlen text < maxPayloadLen := by
  cases h with
  | error s hs => exact (worded_error hs).fits
  | stepError rest => exact strlen_snprintf_lt _
  | ok => exact worded_okText.fits
  | report h => exact Nat.lt_of_le_of_lt (strlen_le _) (report_starts h).2
  | print hopen h => exact strlen_snprintf_lt _
  | register h rest => exact strlen_snprintf_lt _

/-! ## Texts that no reply has -/

section Openings

variable {p q text name setting : List Byte}

/-- Neither of the two starts with the other. -/
def Diverge (p q : List Byte) : Prop := ¬ p <+: q ∧ ¬ q <+: p

instance (p q : List Byte) : Decidable (Diverge p q) := inferInstanceAs (Decidable (_ ∧ _))

theorem Diverge.excludes (h : Diverge p q) (hp : p <+: text) : ¬ q <+: text := fun hq =>
  (List.prefix_or_prefix_of_prefix hp hq).elim h.1 h.2

/-- The start of an object whose first member is `name`. -/
def member (name : List Byte) : List Byte := str "\x7b\"" ++ name ++ str "\":"

/-- The name of a register, in any case, and another one. -/
theorem register_not_member {addr : UInt16} (h : maimanGetRegisterAddress setting = some addr)
    (hname : chr '"' ∉ name) (hno : ∀ r ∈ registerTable, ¬ EqNoCase name (cstr r.name))
    (rest : List Byte) : ¬ member name <+: str "\x7b\"" ++ cstr setting ++ str "\":" ++ rest := by
  obtain ⟨r, hfind, -⟩ := Option.map_eq_some_iff.mp h
  have hmem := List.mem_of_find?_eq_some hfind
  obtain ⟨hcstr, -, ⟨-, hquote⟩, -⟩ := registerTable_names r hmem
  rw [← hcstr] at hquote
  have heq : EqNoCase (cstr setting) (cstr r.name) :=
    (strcaseeq_iff _ _).mp (by simpa using List.find?_some hfind)
  have hq : chr '"' ∉ cstr setting := by
    intro hin
    refine hquote (heq ▸ List.mem_map.mpr ⟨_, hin, ?_⟩)
    decide
  -- Behind the opening, both texts are a name up to the next quote.
  intro hpre
  have hcolon : str "\":" = chr '"' :: str ":" := by decide
  have hnames : name ++ chr '"' :: str ":" <+: cstr setting ++ chr '"' :: (str ":" ++ rest) := by
    rw [member, hcolon] at hpre
    simpa only [List.append_assoc, List.cons_append, List.prefix_append_right_inj] using hpre
  obtain ⟨rfl, -⟩ := prefix_of_append_cons hname hq hnames
  exact hno r hmem heq

/-- The fixed members that a reply starts with. -/
def replyMembers : List (List Byte) :=
  errorMember :: str "\x7b\"status\":" :: str "\x7b\"active_routes\":" :: openings

/-- The name is not one that a reply starts with. -/
structure Foreign (name : List Byte) : Prop where
  quote : chr '"' ∉ name
  texts : ∀ p ∈ replyMembers, Diverge p (member name)
  registers : ∀ r ∈ registerTable, ¬ EqNoCase name (cstr r.name)

/-- **No reply starts with a foreign member.** -/
theorem ReplyText.not_opening (h : ReplyText text) (hname : Foreign name) :
    ¬ member name <+: text := by
  have htexts {p text : List Byte} (hp : p ∈ replyMembers) (hpre : p <+: text) :
      ¬ member name <+: text := (hname.texts p hp).excludes hpre
  have herror : errorMember ∈ replyMembers := List.mem_cons_self
  cases h with
  | error s hs =>
    have hopen : errorMember <+: str "\x7b\"error\":\"" := by decide
    refine htexts herror ?_
    rw [errorText, List.append_assoc]
    exact hopen.trans (List.prefix_append _ _)
  | stepError rest =>
    have hopen : errorMember <+: str "\x7b\"error\":\"Setting switch " := by decide
    exact fun hpre => htexts herror (hopen.trans (List.prefix_append _ rest))
      (hpre.trans (List.take_prefix _ _))
  | ok => exact htexts (p := str "\x7b\"status\":") (by simp [replyMembers]) (by decide)
  | report h =>
    have hopen : str "\x7b\"active_routes\":" <+: str "\x7b\"active_routes\":\x7b" := by decide
    exact htexts (by simp [replyMembers]) (hopen.trans (report_starts h).1)
  | print hopen h =>
    exact fun hpre => htexts (by simp [replyMembers, hopen]) h (hpre.trans (List.take_prefix _ _))
  | register h rest =>
    exact fun hpre => register_not_member h hname.quote hname.registers rest
      (hpre.trans (List.take_prefix _ _))

end Openings

/-! ## The texts of the handlers -/

section Handlers

variable (env : Env) (cmd : Command)

/-- The reply is built for `cmd` from one of the texts. -/
abbrev Tells (cmd : Command) (om : OutMsg) : Prop := AnswersAs (fun _ => ReplyText) cmd om

variable {cmd} in
theorem tells {typ : MsgType} {msg : List Byte} (h : ReplyText msg) :
    Yields (pure (msgBuilder cmd typ msg) : Prog World OutMsg) (Tells cmd) :=
  Yields.pure ⟨typ, msg, h, rfl⟩

theorem tells_error {s : String} (hs : s.length < 200) :
    Yields (pure (errorReply cmd s) : Prog World OutMsg) (Tells cmd) := tells (.error s hs)

theorem memsrouteGet_tells : Yields (memsrouteGet cmd) (Tells cmd) := by
  unfold memsrouteGet
  refine Yields.bind fun w => ?_
  dsimp only
  split
  · exact tells_error cmd (by decide)
  · rename_i text htext
    exact tells (.report htext)

theorem memsrouteStep_tells (step : MemsRouteStep) :
    Yields (memsrouteStep env cmd step) fun r => ∀ om ∈ r, Tells cmd om := by
  have hsome {typ : MsgType} {msg : List Byte} (h : ReplyText msg) :
      ∀ om ∈ some (msgBuilder cmd typ msg), Tells cmd om :=
    fun om hom => ⟨typ, msg, h, (Option.mem_some_iff.mp hom).symm⟩
  unfold memsrouteStep
  refine Yields.bind fun w => ?_
  split
  · exact Yields.pure (hsome (.error _ (by decide)))
  · refine Yields.bind fun rc => ?_
    refine Yields.ite (fun _ => Yields.pure (hsome ?_)) fun _ => Yields.pure fun om h => by cases h
    simp only [List.append_assoc]
    exact .stepError _

theorem memsrouteSet_tells : Yields (memsrouteSet env cmd) (Tells cmd) := by
  unfold memsrouteSet
  refine Yields.ite (fun _ => tells_error cmd (by decide)) fun _ => Yields.bind fun w => ?_
  split
  · exact tells_error cmd (by decide)
  · refine Yields.bind' (Yields.firstSome fun step _ => memsrouteStep_tells env cmd step)
      fun r hr => ?_
    split
    · exact Yields.pure (hr _ rfl)
    · exact tells .ok

theorem memsGet_tells : Yields (memsGet env cmd) (Tells cmd) := by
  unfold memsGet
  refine Yields.ite (fun _ => tells_error cmd (by decide)) fun _ => Yields.bind fun w => ?_
  split
  · exact tells_error cmd (by decide)
  · have hopen : str "\x7b\"value\":" <+: str "\x7b\"value\":\"" := by decide
    simp only [List.append_assoc]
    exact tells (.print (by simp [openings]) (hopen.trans (List.prefix_append _ _)))

theorem memsSet_tells : Yields (memsSet env cmd) (Tells cmd) := by
  unfold memsSet
  refine Yields.ite (fun _ => tells_error cmd (by decide)) fun _ => ?_
  refine Yields.ite (fun _ => tells_error cmd (by decide)) fun _ => Yields.bind fun w => ?_
  split
  · exact tells_error cmd (by decide)
  · refine Yields.bind fun rc => ?_
    exact Yields.ite (fun _ => tells_error cmd (by decide)) fun _ => tells .ok

theorem laserSettingGet_tells : Yields (laserSettingGet env cmd) (Tells cmd) := by
  unfold laserSettingGet
  refine Yields.ite (fun _ => tells_error cmd (by decide)) fun _ => ?_
  refine Yields.ite (fun _ => tells_error cmd (by decide)) fun _ => ?_
  split
  · exact tells_error cmd (by decide)
  · rename_i addr haddr
    refine Yields.bind fun _ => Yields.bind fun r => ?_
    refine Yields.ite (fun _ => tells_error cmd (by decide)) fun _ => ?_
    rw [List.append_assoc _ (decimalInt _)]
    exact tells (.register haddr _)

theorem laserSettingSet_tells : Yields (laserSettingSet env cmd) (Tells cmd) := by
  unfold laserSettingSet
  refine Yields.ite (fun _ => tells_error cmd (by decide)) fun _ => ?_
  refine Yields.ite (fun _ => tells_error cmd (by decide)) fun _ => ?_
  refine Yields.ite (fun _ => tells_error cmd (by decide)) fun _ => ?_
  split
  · exact tells_error cmd (by decide)
  · refine Yields.bind fun _ => Yields.bind fun ok => ?_
    exact Yields.ite (fun _ => tells_error cmd (by decide)) fun _ => tells .ok

theorem attenSettingGet_tells : Yields (attenSettingGet env cmd) (Tells cmd) := by
  unfold attenSettingGet
  refine Yields.ite (fun _ => tells_error cmd (by decide)) fun _ => ?_
  refine Yields.ite (fun _ => tells_error cmd (by decide)) fun _ => Yields.bind fun w => ?_
  simp only [List.append_assoc]
  refine Yields.ite (fun _ => ?_) fun _ => ?_
  · have hopen : str "\x7b\"db2volt\":" <+: str "\x7b\"db2volt\":[" := by decide
    exact tells (.print (by simp [openings]) (hopen.trans (List.prefix_append _ _)))
  · refine Yields.ite (fun _ => ?_) fun _ => tells_error cmd (by decide)
    have hopen (rest : List Byte) : str "\x7b\"voltage\":" <+: str "\x7b\"voltage\":" ++ rest :=
      List.prefix_append _ _
    exact tells (.print (by simp [openings]) (hopen _))

theorem attenSettingSet_tells : Yields (attenSettingSet env cmd) (Tells cmd) := by
  have hset (r : JsonResult) (x : Prog World Bool) : Yields
      (if r.rc < 0 then pure (errorReply cmd "Missing setting value") else do
        let _ ← x
        pure (msgBuilder cmd .respOk okText)) (Tells cmd) :=
    Yields.ite (fun _ => tells_error cmd (by decide)) fun _ => Yields.bind fun _ => tells .ok
  unfold attenSettingSet
  refine Yields.ite (fun _ => tells_error cmd (by decide)) fun _ => ?_
  refine Yields.ite (fun _ => tells_error cmd (by decide)) fun _ => ?_
  refine Yields.ite (fun _ => ?_) fun _ => ?_
  · refine Yields.ite (fun _ => tells_error cmd (by decide)) fun _ => ?_
    exact Yields.bind fun w => Yields.bind fun _ => Yields.bind fun _ => tells .ok
  · refine Yields.ite (fun _ => hset _ _) fun _ => ?_
    exact Yields.ite (fun _ => hset _ _) fun _ => tells_error cmd (by decide)

theorem powerReport_tells : Yields (powerReport env cmd) (Tells cmd) := by
  refine Yields.bind fun on => ?_
  rw [List.append_assoc]
  exact tells (.print (by simp [openings]) (List.prefix_append _ _))

variable {cmd} in
/-- The confirmation of `power_set` and `sleep_set`. -/
theorem tells_switched {β : Type} (x : Prog World β) :
    Yields (do let _ ← x; pure (msgBuilder cmd .respError okText)) (Tells cmd) :=
  Yields.bind fun _ => tells .ok

theorem powerSet_tells : Yields (powerSet env cmd) (Tells cmd) := by
  unfold powerSet
  refine Yields.ite (fun _ => tells_error cmd (by decide)) fun _ => ?_
  exact Yields.ite (fun _ => tells_switched _) fun _ => tells_switched _

theorem sleepSet_tells : Yields (sleepSet env cmd) (Tells cmd) := by
  unfold sleepSet
  refine Yields.ite (fun _ => tells_error cmd (by decide)) fun _ => ?_
  exact Yields.ite (fun _ => tells_switched _) fun _ => tells_switched _

theorem DispatchFunc.tells (func : DispatchFunc) : Yields (func.run env cmd) (Tells cmd) := by
  cases func with
  | memsrouteGet => exact memsrouteGet_tells cmd
  | memsrouteSet => exact memsrouteSet_tells env cmd
  | memsGet => exact memsGet_tells env cmd
  | memsSet => exact memsSet_tells env cmd
  | laserSettingGet => exact laserSettingGet_tells env cmd
  | laserSettingSet => exact laserSettingSet_tells env cmd
  | powerGet | statusGet => exact powerReport_tells env cmd
  | powerSet => exact powerSet_tells env cmd
  | sleepSet => exact sleepSet_tells env cmd
  | attenSettingGet => exact attenSettingGet_tells env cmd
  | attenSettingSet => exact attenSettingSet_tells env cmd

end Handlers

/-! ## Every reply -/

section Replies

variable {env : Env} {om : OutMsg}

theorem dispatch_text (env : Env) (cmd : Command) : Yields (dispatch env cmd) (Tells cmd) := by
  cases hfind : findDispatch cmd.key.data with
  | none =>
    rw [dispatch, dispatchCommand_of_none hfind]
    exact tells_error cmd (by decide)
  | some e =>
    rw [dispatch, dispatchCommand_of_some hfind, callSelected]
    split
    · exact tells_error cmd (by decide)
    · exact DispatchFunc.tells env cmd _

theorem rejection_text {pub : Publish} {inbound : InboundQueue}
    (h : (mqttCommandSubmit env pub inbound).2.2 = some om) : ∃ cmd, Tells cmd om := by
  obtain ⟨cmd, rfl | rfl⟩ := submit_reply h
  · exact ⟨cmd, _, _, .error _ (by decide), rfl⟩
  · exact ⟨cmd, _, _, .error _ (by decide), rfl⟩

end Replies

end Tib
