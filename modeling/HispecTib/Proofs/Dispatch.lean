import HispecTib.App.Handlers

/-!
# Dispatch and the documented key grammar

`DocumentedKey` is the key grammar of the command protocol: four plain words and three families of
hierarchical keys, each with its pair of handlers. `FollowsGrammar cmd` says that dispatch treats
`cmd` as the grammar demands, whatever the handlers do.

The table lookup compares whole keys (`findDispatch_eq_some`), so it never finds the entry of a
hierarchical key, and it finds the entry of a bare family word. `followsGrammar_iff` says that these
are the only two ways in which dispatch departs from the grammar.
-/

open CLib

namespace Tib

/-- A part of a hierarchical key: not empty, without a slash. -/
def Segment (s : List Byte) : Prop := s ≠ [] ∧ chr '/' ∉ s

/-- The documented keys, with the get and the set handler of each. -/
inductive DocumentedKey : List Byte → Option DispatchFunc → Option DispatchFunc → Prop
  | memsroute : DocumentedKey (str "memsroute") (some .memsrouteGet) (some .memsrouteSet)
  | power : DocumentedKey (str "power") (some .powerGet) (some .powerSet)
  | status : DocumentedKey (str "status") (some .statusGet) none
  | sleep : DocumentedKey (str "sleep") none (some .sleepSet)
  | mems {n : List Byte} (hn : Segment n) :
      DocumentedKey (str "mems/" ++ n) (some .memsGet) (some .memsSet)
  | laser {n s : List Byte} (hn : Segment n) (hs : Segment s) :
      DocumentedKey (str "laser" ++ n ++ str "/" ++ s) (some .laserSettingGet)
        (some .laserSettingSet)
  | atten {n s : List Byte} (hn : Segment n) (hs : Segment s) :
      DocumentedKey (str "atten" ++ n ++ str "/" ++ s) (some .attenSettingGet)
        (some .attenSettingSet)

/-- The keys of the three families. -/
def FamilyKey (key : List Byte) : Prop :=
  (∃ n, Segment n ∧ key = str "mems/" ++ n) ∨
  (∃ n s, Segment n ∧ Segment s ∧ key = str "laser" ++ n ++ str "/" ++ s) ∨
  (∃ n s, Segment n ∧ Segment s ∧ key = str "atten" ++ n ++ str "/" ++ s)

/-- The family words without a slash behind them. -/
def bareFamilyWords : List (List Byte) := [str "mems", str "laser", str "atten"]

/-- The handler of an entry that a message type selects, as `dispatch_command` calls it. -/
def callSelected (call : DispatchFunc → Command → Prog World OutMsg) (cmd : Command)
    (get set : Option DispatchFunc) : Prog World OutMsg :=
  match if cmd.msgType = .set then set else get with
  | none => pure (unsupportedResponse cmd)
  | some func => call func cmd

/-- Dispatch treats `cmd` as the key grammar demands, for every meaning of the handlers. -/
structure FollowsGrammar (cmd : Command) : Prop where
  documented : ∀ get set, DocumentedKey cmd.key.cstr get set →
    ∀ call, dispatchCommand call cmd = callSelected call cmd get set
  other : (∀ get set, ¬ DocumentedKey cmd.key.cstr get set) →
    ∀ call, dispatchCommand call cmd = pure (unknownResponse cmd)

/-! ## The table lookup -/

theorem dispatchTable_no_slash : ∀ e ∈ dispatchTable, chr '/' ∉ cstr e.key := by decide

/-- The lookup compares whole keys. -/
theorem findDispatch_eq_some {key : List Byte} {e : DispatchEntry} (h : findDispatch key = some e) :
    e ∈ dispatchTable ∧ cstr e.key = cstr key := by
  refine ⟨List.mem_of_find?_eq_some h, (strcmp_eq_zero _ _).mp ?_⟩
  simpa using List.find?_some h

theorem findDispatch_of_slash {key : List Byte} (h : chr '/' ∈ cstr key) :
    findDispatch key = none := by
  cases hf : findDispatch key with
  | none => rfl
  | some e =>
    obtain ⟨hmem, heq⟩ := findDispatch_eq_some hf
    exact absurd (heq ▸ h) (dispatchTable_no_slash e hmem)

/-- The lookup sees the key up to its NUL only. -/
theorem findDispatch_congr {key key' : List Byte} (h : cstr key = cstr key') :
    findDispatch key = findDispatch key' := by
  unfold findDispatch
  simp only [strcmp_eq_zero, h]

theorem dispatchCommand_of_none {cmd : Command} (h : findDispatch cmd.key.data = none)
    (call : DispatchFunc → Command → Prog World OutMsg) :
    dispatchCommand call cmd = pure (unknownResponse cmd) := by
  simp only [dispatchCommand, h]

theorem dispatchCommand_of_some {cmd : Command} {e : DispatchEntry}
    (h : findDispatch cmd.key.data = some e)
    (call : DispatchFunc → Command → Prog World OutMsg) :
    dispatchCommand call cmd = callSelected call cmd e.getHandler e.setHandler := by
  simp only [dispatchCommand, h]
  rfl

/-! ## Keys -/

theorem FamilyKey.slash {key : List Byte} (h : FamilyKey key) : chr '/' ∈ key := by
  have hm : chr '/' ∈ str "mems/" := by decide
  have hs : chr '/' ∈ str "/" := by decide
  rcases h with ⟨n, -, rfl⟩ | ⟨n, s, -, -, rfl⟩ | ⟨n, s, -, -, rfl⟩ <;> simp [hm, hs]

/-- A family key is documented, with two handlers. -/
theorem FamilyKey.documented {key : List Byte} (h : FamilyKey key) :
    ∃ g s, DocumentedKey key (some g) (some s) := by
  rcases h with ⟨n, hn, rfl⟩ | ⟨n, s, hn, hs, rfl⟩ | ⟨n, s, hn, hs, rfl⟩
  · exact ⟨_, _, .mems hn⟩
  · exact ⟨_, _, .laser hn hs⟩
  · exact ⟨_, _, .atten hn hs⟩

/-- Without a slash, only the four plain words are documented. -/
theorem DocumentedKey.plain {key : List Byte} {get set : Option DispatchFunc}
    (h : DocumentedKey key get set) (hf : ¬ FamilyKey key) :
    ∃ e, findDispatch key = some e ∧ e.getHandler = get ∧ e.setHandler = set := by
  cases h with
  | memsroute => exact ⟨_, rfl, rfl, rfl⟩
  | power => exact ⟨_, rfl, rfl, rfl⟩
  | status => exact ⟨_, rfl, rfl, rfl⟩
  | sleep => exact ⟨_, rfl, rfl, rfl⟩
  | mems hn => exact absurd (Or.inl ⟨_, hn, rfl⟩) hf
  | laser hn hs => exact absurd (Or.inr (Or.inl ⟨_, _, hn, hs, rfl⟩)) hf
  | atten hn hs => exact absurd (Or.inr (Or.inr ⟨_, _, hn, hs, rfl⟩)) hf

/-- The words of the table are the plain documented words and the bare family words. -/
theorem dispatchTable_words : ∀ e ∈ dispatchTable, cstr e.key ∈ bareFamilyWords ∨
    DocumentedKey (cstr e.key) e.getHandler e.setHandler := by
  have hw : ∀ e ∈ dispatchTable, cstr e.key = e.key := by decide
  intro e he
  rw [hw e he]
  simp only [dispatchTable, List.mem_cons, List.not_mem_nil, or_false] at he
  rcases he with rfl | rfl | rfl | rfl | rfl | rfl | rfl
  · exact Or.inr .memsroute
  · exact Or.inl (by simp [bareFamilyWords])
  · exact Or.inl (by simp [bareFamilyWords])
  · exact Or.inr .power
  · exact Or.inl (by simp [bareFamilyWords])
  · exact Or.inr .status
  · exact Or.inr .sleep

theorem bareFamilyWords_found : ∀ w ∈ bareFamilyWords, ∃ e g s, findDispatch w = some e ∧
    e.getHandler = some g ∧ e.setHandler = some s := by
  intro w hw
  simp only [bareFamilyWords, List.mem_cons, List.not_mem_nil, or_false] at hw
  rcases hw with rfl | rfl | rfl <;> exact ⟨_, _, _, rfl, rfl, rfl⟩

/-- A bare family word has no slash and is none of the four plain words. -/
theorem bareFamilyWords_plain : ∀ w ∈ bareFamilyWords, chr '/' ∉ w ∧
    w ∉ [str "memsroute", str "power", str "status", str "sleep"] := by decide

/-- A bare family word is not documented. -/
theorem not_documented_of_bare {w : List Byte} (hw : w ∈ bareFamilyWords)
    (get set : Option DispatchFunc) : ¬ DocumentedKey w get set := by
  intro h
  obtain ⟨hslash, hplain⟩ := bareFamilyWords_plain w hw
  have hf : ¬ FamilyKey w := fun hf => hslash hf.slash
  cases h with
  | mems hn => exact hf (Or.inl ⟨_, hn, rfl⟩)
  | laser hn hs => exact hf (Or.inr (Or.inl ⟨_, _, hn, hs, rfl⟩))
  | atten hn hs => exact hf (Or.inr (Or.inr ⟨_, _, hn, hs, rfl⟩))
  | _ => exact hplain (by simp)

/-! ## Where dispatch follows the grammar -/

/-- A meaning of the handlers that no fixed reply of dispatch agrees with. -/
theorem busy_ne_unknown (cmd : Command) :
    (pure (busyResponse cmd) : Prog World OutMsg) ≠ pure (unknownResponse cmd) := by
  intro h
  have := congrArg (fun x : Prog World OutMsg => (x default).val.payloadLen) h
  simp only [Prog.pure_run, busyResponse, unknownResponse, errorReply, msgBuilder] at this
  revert this
  decide

/-- **Dispatch and the key grammar.** Dispatch treats a command as the grammar demands exactly when
its key is neither a hierarchical key of a family nor a bare family word. -/
theorem followsGrammar_iff (cmd : Command) :
    FollowsGrammar cmd ↔ ¬ FamilyKey cmd.key.cstr ∧ cmd.key.cstr ∉ bareFamilyWords := by
  constructor
  · intro h
    refine ⟨fun hf => ?_, fun hw => ?_⟩
    · -- The lookup misses a hierarchical key, so no handler is called.
      obtain ⟨g, s, hd⟩ := hf.documented
      have hnone : findDispatch cmd.key.data = none := findDispatch_of_slash hf.slash
      have hc := h.documented _ _ hd fun _ cmd => pure (busyResponse cmd)
      rw [dispatchCommand_of_none hnone] at hc
      refine busy_ne_unknown cmd ?_
      rw [hc]
      unfold callSelected
      split_ifs <;> rfl
    · -- The lookup finds a bare family word, so its handler is called.
      obtain ⟨e, g, s, hfind, hg, hs⟩ := bareFamilyWords_found _ hw
      have hfind' : findDispatch cmd.key.data = some e := by
        rw [← hfind]
        exact findDispatch_congr (cstr_cstr _).symm
      have hc := h.other (not_documented_of_bare hw) fun _ cmd => pure (busyResponse cmd)
      rw [dispatchCommand_of_some hfind', hg, hs] at hc
      refine busy_ne_unknown cmd ?_
      rw [← hc]
      unfold callSelected
      split_ifs <;> rfl
  · rintro ⟨hf, hw⟩
    refine ⟨fun get set hd call => ?_, fun hd call => ?_⟩
    · obtain ⟨e, hfind, rfl, rfl⟩ := hd.plain hf
      refine dispatchCommand_of_some ?_ call
      rw [← hfind]
      exact findDispatch_congr (cstr_cstr _).symm
    · refine dispatchCommand_of_none ?_ call
      cases hfind : findDispatch cmd.key.data with
      | none => rfl
      | some e =>
        obtain ⟨hmem, heq⟩ := findDispatch_eq_some hfind
        have hkey : cstr e.key = cmd.key.cstr := heq
        rcases dispatchTable_words e hmem with hb | hd'
        · exact absurd (hkey ▸ hb) hw
        · rw [hkey] at hd'
          exact absurd hd' (hd _ _)

/-- A get of one switch by its documented key. -/
def memsGetCommand : Command :=
  { Command.zero with key := (Buf.zero _).write 0 (str "mems/yj_mm_sm") }

/-- The documented key `mems/<name>` is answered as an unknown request. -/
theorem memsKey_not_dispatched : ¬ FollowsGrammar memsGetCommand := by
  intro h
  have hd : DocumentedKey memsGetCommand.key.cstr (some .memsGet) (some .memsSet) := by
    have hkey : memsGetCommand.key.cstr = str "mems/" ++ str "yj_mm_sm" := by decide
    rw [hkey]
    exact .mems (by unfold Segment; decide)
  have hc := h.documented _ _ hd fun _ cmd => pure (busyResponse cmd)
  exact busy_ne_unknown memsGetCommand hc.symm

end Tib
