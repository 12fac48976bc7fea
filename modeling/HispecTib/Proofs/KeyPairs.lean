import HispecTib.App.Command

/-!
# The grammar of key pairs

A key is a name, a slash, a setting, and possibly another slash with anything behind it. The
command dispatch and the JSON helpers split it with the same code.

* `KeyParts`: the name and the setting of a key. They are unique (`KeyParts.unique`), and a key with
  a slash has them (`exists_keyParts`).
* `splitKeyPair_noSlash`, `splitKeyPair_badName`, `splitKeyPair_badSetting`,
  `splitKeyPair_stores`: the four ways through the splitter.
* `SplitSpec`: the promise of a splitter. `SplitSpec.rc_eq_zero_iff`, `SplitSpec.parts_eq`: what it
  says of a key with its parts known.
* `keyPairs_split`: both splitters accept exactly the grammar, say which part is at fault, and
  write nothing behind the sizes that they are given.
-/

open CLib

namespace Tib

/-- The name and the setting of a key. -/
structure KeyParts (key name setting : List Byte) : Prop where
  name_slash : chr '/' ∉ name
  setting_slash : chr '/' ∉ setting
  text : ∃ r, cstr key = name ++ chr '/' :: (setting ++ r) ∧ (r = [] ∨ ∃ r', r = chr '/' :: r')

/-- A part is there, and fits in `size` bytes with its NUL. -/
def Fits (size : Nat) (part : List Byte) : Prop := 0 < part.length ∧ part.length < size

/-- `part` and a NUL are written at the start of the array, and nothing else is. -/
def StoredIn {n : Nat} (part : List Byte) (before after : Buf n) : Prop :=
  after.data = part ++ 0 :: before.data.drop (part.length + 1)

section Parts

variable {key a b name name' setting setting' : List Byte}

theorem takeWhile_setting {r : List Byte} (hsetting : chr '/' ∉ setting)
    (hr : r = [] ∨ ∃ r', r = chr '/' :: r') :
    (setting ++ r).takeWhile (· ≠ chr '/') = setting := by
  have hpos : ∀ x ∈ setting, decide (x ≠ chr '/') = true :=
    fun x hx => decide_eq_true fun hx' => hsetting (hx' ▸ hx)
  have hstop : r.takeWhile (· ≠ chr '/') = [] := by
    rcases hr with rfl | ⟨r', rfl⟩
    · rfl
    · exact List.takeWhile_cons_of_neg (by simp)
  rw [List.takeWhile_append_of_pos hpos, hstop, List.append_nil]

/-- The first slash ends the name, the next one or the end of the key the setting. -/
theorem KeyParts.unique (h : KeyParts key name setting) (h' : KeyParts key name' setting') :
    name = name' ∧ setting = setting' := by
  obtain ⟨r, hr, hend⟩ := h.text
  obtain ⟨r', hr', hend'⟩ := h'.text
  have hname : name = name' := by
    have hcut := takeWhile_setting (r := chr '/' :: (setting ++ r)) h.name_slash (.inr ⟨_, rfl⟩)
    rw [← hr, hr'] at hcut
    exact hcut.symm.trans (takeWhile_setting h'.name_slash (.inr ⟨_, rfl⟩))
  subst hname
  have hrest : setting ++ r = setting' ++ r' :=
    (List.cons.inj (List.append_cancel_left (hr.symm.trans hr'))).2
  have hcut := takeWhile_setting h.setting_slash hend
  rw [hrest, takeWhile_setting h'.setting_slash hend'] at hcut
  exact ⟨rfl, hcut.symm⟩

/-- What comes behind the first slash, up to the next one, is the setting. -/
theorem keyParts_takeWhile (hkey : cstr key = a ++ chr '/' :: b) (ha : chr '/' ∉ a) :
    KeyParts key a (b.takeWhile (· ≠ chr '/')) := by
  refine ⟨ha, fun hmem => ?_, b.dropWhile (· ≠ chr '/'), ?_, ?_⟩
  · simpa using List.mem_takeWhile_imp hmem
  · rw [hkey, List.takeWhile_append_dropWhile]
  · cases hd : b.dropWhile (· ≠ chr '/') with
    | nil => exact .inl rfl
    | cons x r' =>
      have hx := List.head_dropWhile_not (· ≠ chr '/') (l := b) (by rw [hd]; simp)
      simp only [hd, List.head_cons, decide_eq_false_iff_not, ne_eq, not_not] at hx
      exact .inr ⟨r', by rw [hx]⟩

theorem exists_keyParts (h : chr '/' ∈ cstr key) : ∃ name setting, KeyParts key name setting := by
  obtain ⟨a, b, hkey, ha⟩ := List.eq_append_cons_of_mem h
  exact ⟨a, _, keyParts_takeWhile hkey ha⟩

/-- The parts of a key with one slash. -/
theorem KeyParts.of_oneSlash (hkey : cstr key = a ++ chr '/' :: b) (ha : chr '/' ∉ a)
    (hb : chr '/' ∉ b) : KeyParts key a b :=
  ⟨ha, hb, [], by rw [hkey, List.append_nil], .inl rfl⟩

theorem KeyParts.zero_notMem (h : KeyParts key name setting) :
    (0 : Byte) ∉ name ∧ (0 : Byte) ∉ setting := by
  obtain ⟨r, hr, -⟩ := h.text
  have h0 := zero_notMem_cstr key
  rw [hr] at h0
  exact ⟨fun hm => h0 (List.mem_append_left _ hm),
    fun hm => h0 (List.mem_append_right _ (List.mem_cons_of_mem _ (List.mem_append_left _ hm)))⟩

theorem KeyParts.slash_mem (h : KeyParts key name setting) : chr '/' ∈ cstr key := by
  obtain ⟨r, hr, -⟩ := h.text
  rw [hr]
  exact List.mem_append_right _ List.mem_cons_self

end Parts

/-! ## The splitter -/

section Split

variable {N M : Nat} {key name setting : List Byte} {outName : Buf N} {maxName : Nat}
  {outSetting : Buf M} {maxSetting : Nat}

/-- Where the splitter finds the two parts in the memory of the key. -/
theorem KeyParts.located (h : KeyParts key name setting) :
    strchr key (chr '/') = some name.length ∧ key.take name.length = name ∧
      strcspn (key.drop (name.length + 1)) (str "/") = setting.length ∧
      (key.drop (name.length + 1)).take setting.length = setting := by
  obtain ⟨r, hr, hend⟩ := h.text
  obtain ⟨hrest, hcspn⟩ := strcspn_behind hr
  have hname : name <+: key := (hr ▸ List.prefix_append _ _ : name <+: cstr key).trans
    (cstr_prefixOf key)
  have hsetting : setting <+: key.drop (name.length + 1) :=
    (hrest ▸ List.prefix_append _ _ : setting <+: cstr (key.drop (name.length + 1))).trans
      (cstr_prefixOf _)
  refine ⟨strchr_eq hr h.name_slash, (List.prefix_iff_eq_take.mp hname).symm, ?_,
    (List.prefix_iff_eq_take.mp hsetting).symm⟩
  rw [hcspn, takeWhile_setting h.setting_slash hend]

/-- A copied part and its NUL. -/
theorem storedIn_memcpy {n : Nat} {part src : List Byte} (b : Buf n)
    (hsrc : src.take part.length = part) (hn : part.length < n) :
    StoredIn part b ((b.memcpy src part.length).write part.length [0]) := by
  have hle : part.length ≤ src.length := by
    conv_lhs => rw [← hsrc]
    exact List.length_take_le' _ _
  rw [StoredIn, Buf.memcpy_write_data b hle hn, hsrc]

theorem not_fits {size : Nat} : ¬ Fits size name ↔ name.length = 0 ∨ name.length ≥ size := by
  unfold Fits
  omega

theorem splitKeyPair_noSlash (h : chr '/' ∉ cstr key) :
    splitKeyPair key outName maxName outSetting maxSetting = ⟨-1, outName, outSetting⟩ := by
  rw [splitKeyPair, strchr_eq_none h]

theorem splitKeyPair_badName (h : KeyParts key name setting) (hname : ¬ Fits maxName name) :
    splitKeyPair key outName maxName outSetting maxSetting = ⟨-2, outName, outSetting⟩ := by
  simp only [splitKeyPair, h.located.1, if_pos (not_fits.mp hname)]

/-- The name is written before the setting is looked at. -/
theorem splitKeyPair_badSetting (h : KeyParts key name setting) (hname : Fits maxName name)
    (hsetting : ¬ Fits maxSetting setting) :
    splitKeyPair key outName maxName outSetting maxSetting =
      ⟨-3, (outName.memcpy key name.length).write name.length [0], outSetting⟩ := by
  obtain ⟨hslash, -, hcspn, -⟩ := h.located
  simp only [splitKeyPair, hslash, hcspn, if_neg (fun hbad => not_fits.mpr hbad hname),
    if_pos (not_fits.mp hsetting)]

theorem splitKeyPair_stores (h : KeyParts key name setting) (hname : Fits maxName name)
    (hsetting : Fits maxSetting setting) :
    splitKeyPair key outName maxName outSetting maxSetting =
      ⟨0, (outName.memcpy key name.length).write name.length [0],
        (outSetting.memcpy (key.drop (name.length + 1)) setting.length).write setting.length
          [0]⟩ := by
  obtain ⟨hslash, -, hcspn, -⟩ := h.located
  simp only [splitKeyPair, hslash, hcspn, if_neg (fun hbad => not_fits.mpr hbad hname),
    if_neg (fun hbad => not_fits.mpr hbad hsetting)]

/-- The ways through a splitter: the outcome of each, and when it is taken. -/
inductive SplitOutcome (key : List Byte) (outName : Buf N) (maxName : Nat) (outSetting : Buf M)
    (maxSetting : Nat) : KeyPair N M → Prop
  | noSlash (h : chr '/' ∉ cstr key) :
    SplitOutcome key outName maxName outSetting maxSetting ⟨-1, outName, outSetting⟩
  | badName {name setting : List Byte} (h : KeyParts key name setting)
    (hname : ¬ Fits maxName name) :
    SplitOutcome key outName maxName outSetting maxSetting ⟨-2, outName, outSetting⟩
  | badSetting {name setting : List Byte} {outName' : Buf N} (h : KeyParts key name setting)
    (hname : Fits maxName name) (hsetting : ¬ Fits maxSetting setting)
    (hstored : StoredIn name outName outName') :
    SplitOutcome key outName maxName outSetting maxSetting ⟨-3, outName', outSetting⟩
  | split {name setting : List Byte} {outName' : Buf N} {outSetting' : Buf M}
    (h : KeyParts key name setting) (hname : Fits maxName name)
    (hsetting : Fits maxSetting setting) (hstored : StoredIn name outName outName')
    (hstored' : StoredIn setting outSetting outSetting') :
    SplitOutcome key outName maxName outSetting maxSetting ⟨0, outName', outSetting'⟩

theorem splitKeyPair_outcome (hN : maxName ≤ N) (hM : maxSetting ≤ M) :
    SplitOutcome key outName maxName outSetting maxSetting
      (splitKeyPair key outName maxName outSetting maxSetting) := by
  by_cases hslash : chr '/' ∈ cstr key
  · obtain ⟨name, setting, h⟩ := exists_keyParts hslash
    obtain ⟨-, hsrc, -, hsrc'⟩ := h.located
    by_cases hname : Fits maxName name
    · have hstored := storedIn_memcpy outName hsrc (Nat.lt_of_lt_of_le hname.2 hN)
      by_cases hsetting : Fits maxSetting setting
      · rw [splitKeyPair_stores h hname hsetting]
        have hstored' := storedIn_memcpy outSetting hsrc' (Nat.lt_of_lt_of_le hsetting.2 hM)
        exact .split h hname hsetting hstored hstored'
      · rw [splitKeyPair_badSetting h hname hsetting]
        exact .badSetting h hname hsetting hstored
    · rw [splitKeyPair_badName h hname]
      exact .badName h hname
  · rw [splitKeyPair_noSlash hslash]
    exact .noSlash hslash

end Split

/-! ## What a splitter promises -/

section Promise

variable {N M : Nat} {key : List Byte} {outName : Buf N} {maxName : Nat} {outSetting : Buf M}
  {maxSetting : Nat} {r : KeyPair N M}

/-- The promise of a splitter, for a key and two arrays of which it may use so many bytes. -/
structure SplitSpec (key : List Byte) (outName : Buf N) (maxName : Nat) (outSetting : Buf M)
    (maxSetting : Nat) (r : KeyPair N M) : Prop where
  accepts : r.rc = 0 ↔
    ∃ name setting, KeyParts key name setting ∧ Fits maxName name ∧ Fits maxSetting setting
  stores : r.rc = 0 → ∀ name setting, KeyParts key name setting →
    StoredIn name outName r.name ∧ StoredIn setting outSetting r.setting
  no_slash : r.rc = -1 ↔ chr '/' ∉ cstr key
  bad_name : r.rc = -2 ↔ ∃ name rest, cstr key = name ++ chr '/' :: rest ∧ chr '/' ∉ name ∧
    (name = [] ∨ maxName ≤ name.length)
  otherwise : r.rc ≠ 0 → r.rc ≠ -1 → r.rc ≠ -2 → r.rc = -3
  name_bound : r.name.data.drop maxName = outName.data.drop maxName
  setting_bound : r.setting.data.drop maxSetting = outSetting.data.drop maxSetting
  untouched : r.rc ≠ 0 → r.setting = outSetting
  round_trip : ∀ name setting rest, key = name ++ chr '/' :: (setting ++ 0 :: rest) →
    (0 : Byte) ∉ name → (0 : Byte) ∉ setting → chr '/' ∉ name → chr '/' ∉ setting →
    Fits maxName name → Fits maxSetting setting →
    r.rc = 0 ∧ r.name.cstr = name ∧ r.setting.cstr = setting

theorem StoredIn.drop {n size : Nat} {part : List Byte} {before after : Buf n}
    (h : StoredIn part before after) (hfits : Fits size part) :
    after.data.drop size = before.data.drop size := by
  have hlt := hfits.2
  have hsplit : part ++ 0 :: before.data.drop (part.length + 1) =
      (part ++ [0]) ++ before.data.drop (part.length + 1) := by simp
  have hsize : size = (part ++ [(0 : Byte)]).length + (size - (part.length + 1)) := by
    rw [List.length_append, List.length_singleton]
    omega
  rw [h, hsplit, hsize, ← List.drop_drop, List.drop_left, List.drop_drop]
  congr 1
  rw [List.length_append, List.length_singleton]

theorem StoredIn.cstr_eq {n : Nat} {part : List Byte} {before after : Buf n}
    (h : StoredIn part before after) (h0 : (0 : Byte) ∉ part) : after.cstr = part := by
  rw [Buf.cstr, h]
  exact cstr_append_zero h0 _

/-- A name that ends at the first slash is the name of the key. -/
theorem keyParts_badName {name setting name' rest : List Byte} (h : KeyParts key name setting)
    (hkey : cstr key = name' ++ chr '/' :: rest) (hname : chr '/' ∉ name') : name' = name :=
  (keyParts_takeWhile hkey hname).unique h |>.1

theorem SplitOutcome.spec (h : SplitOutcome key outName maxName outSetting maxSetting r) :
    SplitSpec key outName maxName outSetting maxSetting r where
  accepts := by
    cases h with
    | noSlash hno =>
      exact iff_of_false (by simp) fun ⟨_, _, hparts, _⟩ => hno hparts.slash_mem
    | badName hparts hname =>
      refine iff_of_false (by simp) fun ⟨_, _, hparts', hname', _⟩ => hname ?_
      exact (hparts.unique hparts').1 ▸ hname'
    | badSetting hparts _ hsetting =>
      refine iff_of_false (by simp) fun ⟨_, _, hparts', _, hsetting'⟩ => hsetting ?_
      exact (hparts.unique hparts').2 ▸ hsetting'
    | split hparts hname hsetting => exact iff_of_true rfl ⟨_, _, hparts, hname, hsetting⟩
  stores := by
    intro hrc name setting hparts
    cases h with
    | noSlash | badName | badSetting => simp at hrc
    | split hparts' _ _ hstored hstored' =>
      obtain ⟨rfl, rfl⟩ := hparts'.unique hparts
      exact ⟨hstored, hstored'⟩
  no_slash := by
    cases h with
    | noSlash hno => exact iff_of_true rfl hno
    | badName hparts | badSetting hparts | split hparts =>
      exact iff_of_false (by simp) (not_not.mpr hparts.slash_mem)
  bad_name := by
    cases h with
    | noSlash hno =>
      refine iff_of_false (by simp) fun ⟨_, _, hkey, _⟩ => hno ?_
      rw [hkey]
      exact List.mem_append_right _ List.mem_cons_self
    | badName hparts hname =>
      obtain ⟨r, hr, -⟩ := hparts.text
      refine iff_of_true rfl ⟨_, _, hr, hparts.name_slash, ?_⟩
      exact (not_fits.mp hname).imp_left List.eq_nil_of_length_eq_zero
    | badSetting hparts hname | split hparts hname =>
      refine iff_of_false (by simp) fun ⟨_, _, hkey, hslash, hbad⟩ => ?_
      obtain rfl := keyParts_badName hparts hkey hslash
      exact not_fits.mpr (hbad.imp_left (congrArg List.length)) hname
  otherwise := by
    cases h <;> simp
  name_bound := by
    cases h with
    | noSlash | badName => rfl
    | badSetting _ hname _ hstored | split _ hname _ hstored => exact hstored.drop hname
  setting_bound := by
    cases h with
    | noSlash | badName | badSetting => rfl
    | split _ _ hsetting _ hstored' => exact hstored'.drop hsetting
  untouched := by
    cases h with
    | noSlash | badName | badSetting => exact fun _ => rfl
    | split => exact fun hrc => absurd rfl hrc
  round_trip := by
    rintro name setting rest hkey hname0 hsetting0 hname hsetting hfits hfits'
    have htext : cstr key = name ++ chr '/' :: setting := by
      rw [hkey, cstr_append hname0, cstr_cons (by decide), cstr_append_zero hsetting0]
    have hparts := KeyParts.of_oneSlash htext hname hsetting
    cases h with
    | noSlash hno => exact absurd hparts.slash_mem hno
    | badName hparts' hbad => exact absurd ((hparts.unique hparts').1 ▸ hfits) hbad
    | badSetting hparts' _ hbad => exact absurd ((hparts.unique hparts').2 ▸ hfits') hbad
    | split hparts' _ _ hstored hstored' =>
      obtain ⟨rfl, rfl⟩ := hparts'.unique hparts
      exact ⟨rfl, hstored.cstr_eq hname0, hstored'.cstr_eq hsetting0⟩

/-- The name of a key with its parts known, and its setting, after a successful split. -/
theorem SplitSpec.parts_eq (h : SplitSpec key outName maxName outSetting maxSetting r)
    {name setting : List Byte} (hparts : KeyParts key name setting) (hrc : r.rc = 0) :
    r.name.cstr = name ∧ r.setting.cstr = setting := by
  obtain ⟨hname0, hsetting0⟩ := hparts.zero_notMem
  obtain ⟨hname, hsetting⟩ := h.stores hrc name setting hparts
  exact ⟨hname.cstr_eq hname0, hsetting.cstr_eq hsetting0⟩

theorem SplitSpec.rc_eq_zero_iff (h : SplitSpec key outName maxName outSetting maxSetting r)
    {name setting : List Byte} (hparts : KeyParts key name setting) :
    r.rc = 0 ↔ Fits maxName name ∧ Fits maxSetting setting := by
  rw [h.accepts]
  constructor
  · rintro ⟨name', setting', hparts', hfits⟩
    obtain ⟨rfl, rfl⟩ := hparts'.unique hparts
    exact hfits
  · exact fun hfits => ⟨name, setting, hparts, hfits⟩

/-- **The key splitters.** Both accept exactly the grammar, whatever the arrays hold. -/
theorem keyPairs_split :
    (∀ (N M : Nat) (key : List Byte) (outName : Buf N) (maxName : Nat) (outSetting : Buf M)
      (maxSetting : Nat), maxName ≤ N → maxSetting ≤ M →
      SplitSpec key outName maxName outSetting maxSetting
        (parseKeyPair key outName maxName outSetting maxSetting)) ∧
    ∀ (N M : Nat) (key : List Byte) (outName : Buf N) (maxName : Nat) (outSetting : Buf M)
      (maxSetting : Nat), maxName ≤ N → maxSetting ≤ M →
      SplitSpec key outName maxName outSetting maxSetting
        (cooJsonParseKeyPair key outName maxName outSetting maxSetting) :=
  ⟨fun _ _ _ _ _ _ _ hN hM => (splitKeyPair_outcome hN hM).spec,
    fun _ _ _ _ _ _ _ hN hM => (splitKeyPair_outcome hN hM).spec⟩

end Promise

end Tib
