import HispecTib.Proofs.KeyPairs

/-!
# Commands in their simple format

`coo_json_parse_command` looks for `"cmd":"` and `"value":` as raw text. A quote ends each part of
the format, so the search for the value compares one part of the text after the other with the
word `value`, and a command that is that word has no colon behind it.

* `strstr_cmd`, `strstr_value`: where the two searches end.
* `cooJsonParseCommand_eq`: the parser on a text that starts like a command.
* `cooJsonParseCommand_failed`: an error leaves both outputs.
* `simpleCommand_inverts`: the parser gives back what the format was filled with.
-/

open CLib

namespace Tib

/-- `{"cmd":"c","value":v}`. -/
def commandText (c v : List Byte) : List Byte :=
  str "\x7b\"cmd\":\"" ++ c ++ str "\",\"value\":" ++ v ++ str "\x7d"

/-- `{"cmd":"c"}`. -/
def bareCommandText (c : List Byte) : List Byte :=
  str "\x7b\"cmd\":\"" ++ c ++ str "\"\x7d"

section Search

variable {json c t : List Byte}

theorem strstr_cmd (h : cstr json = str "\x7b\"cmd\":\"" ++ t) :
    strstr json (str "\"cmd\":\"") = some 1 := by
  have htext : cstr json = str "\x7b" ++ (str "\"cmd\":\"" ++ t) := h
  have hskip : firstInfix (str "\"cmd\":\"") (str "\x7b" ++ (str "\"cmd\":\"" ++ t)) =
      (firstInfix (str "\"cmd\":\"") (str "\"cmd\":\"" ++ t)).map (· + 1) :=
    firstInfix_append (by decide)
  have hneedle : cstr (str "\"cmd\":\"") = str "\"cmd\":\"" := rfl
  rw [strstr, hneedle, htext, hskip, firstInfix_eq_zero (List.prefix_append _ _)]
  rfl

/-- The search for the value gets past the command. -/
theorem strstr_value (h : cstr json = str "\x7b\"cmd\":\"" ++ (c ++ chr '"' :: t))
    (hc : chr '"' ∉ c) (hcolon : ¬ str ":" <+: t) :
    strstr json (str "\"value\":") =
      (firstInfix (str "\"value\":") (chr '"' :: t)).map (· + (c.length + 8)) := by
  have hneedle : cstr (str "\"value\":") = chr '"' :: (str "value" ++ chr '"' :: str ":") := rfl
  have htext : cstr json = str "\x7b" ++ (chr '"' :: (str "cmd" ++
      chr '"' :: (str ":" ++ chr '"' :: (c ++ chr '"' :: t)))) := h
  have hvalue : chr '"' ∉ str "value" := by decide
  rw [strstr, hneedle, htext, firstInfix_append (by decide),
    firstInfix_part hvalue (by decide) (fun heq => absurd heq (by decide)),
    firstInfix_part hvalue (by decide) (fun heq => absurd heq (by decide)),
    firstInfix_part hvalue hc (fun _ => hcolon)]
  simp only [Option.map_map]
  rfl

end Search

section Parser

variable {F : Type} [Zero F] (strtof : List Byte → F) {n : Nat} {json c t : List Byte}
  (cmdOut : Buf n) (cmdSize : Nat) (valueOut : Option F)

/-- Where the command stands, and what `strtof` is given. -/
theorem cooJsonParseCommand_eq (h : cstr json = str "\x7b\"cmd\":\"" ++ (c ++ chr '"' :: t))
    (hc : chr '"' ∉ c) (hcolon : ¬ str ":" <+: t) :
    cooJsonParseCommand strtof json cmdOut cmdSize valueOut =
      if c.length ≥ cmdSize then ⟨negEnomem, cmdOut, valueOut⟩
      else ⟨0, (cmdOut.memcpy (json.drop 8) c.length).write c.length [0], valueOut.map fun _ =>
        match firstInfix (str "\"value\":") (chr '"' :: t) with
        | some i => strtof (json.drop (i + (c.length + 8) + 8))
        | none => 0⟩ := by
  have hdrop : cstr (json.drop 8) = c ++ chr '"' :: t := by
    have hlen : 8 ≤ strlen json := by
      rw [strlen, h, List.length_append]
      exact Nat.le_add_right 8 _
    rw [cstr_drop hlen, h]
    rfl
  simp only [cooJsonParseCommand, strstr_cmd h, Nat.reduceAdd, strchr_eq hdrop hc,
    strstr_value h hc hcolon]
  cases firstInfix (str "\"value\":") (chr '"' :: t) <;> rfl

/-- The copy of the command. -/
theorem command_stored (h : cstr json = str "\x7b\"cmd\":\"" ++ (c ++ chr '"' :: t))
    (h0 : (0 : Byte) ∉ c) (hn : c.length < n) :
    ((cmdOut.memcpy (json.drop 8) c.length).write c.length [0]).cstr = c := by
  have hpre : c <+: json.drop 8 := by
    obtain ⟨rest, hrest⟩ := cstr_prefixOf json
    rw [← hrest, h]
    exact ⟨chr '"' :: t ++ rest, by simp [str]⟩
  have htake : (json.drop 8).take c.length = c := (List.prefix_iff_eq_take.mp hpre).symm
  exact (storedIn_memcpy cmdOut htake hn).cstr_eq h0

/-- An error leaves both outputs, whatever the text is. -/
theorem cooJsonParseCommand_failed
    (hrc : (cooJsonParseCommand strtof json cmdOut cmdSize valueOut).rc ≠ 0) :
    (cooJsonParseCommand strtof json cmdOut cmdSize valueOut).cmdOut = cmdOut ∧
      (cooJsonParseCommand strtof json cmdOut cmdSize valueOut).valueOut = valueOut := by
  unfold cooJsonParseCommand at hrc ⊢
  split at hrc
  · exact ⟨rfl, rfl⟩
  · dsimp only at hrc ⊢
    split at hrc
    · exact ⟨rfl, rfl⟩
    · split_ifs at hrc ⊢
      · exact ⟨rfl, rfl⟩
      · exact absurd rfl hrc

end Parser

/-! ## The two forms -/

section Forms

variable {c : List Byte} (v rest : List Byte)

theorem cstr_commandText (h0 : (0 : Byte) ∉ c) : cstr (commandText c v ++ 0 :: rest) =
    str "\x7b\"cmd\":\"" ++ (c ++ chr '"' :: (str ",\"value\":" ++
      cstr (v ++ (str "\x7d" ++ 0 :: rest)))) := by
  have htext : commandText c v ++ 0 :: rest = str "\x7b\"cmd\":\"" ++ (c ++
      (str "\",\"value\":" ++ (v ++ (str "\x7d" ++ 0 :: rest)))) := by
    simp only [commandText, List.append_assoc]
  rw [htext, cstr_append (by decide), cstr_append h0, cstr_append (by decide)]
  rfl

theorem cstr_bareCommandText (h0 : (0 : Byte) ∉ c) : cstr (bareCommandText c ++ 0 :: rest) =
    str "\x7b\"cmd\":\"" ++ (c ++ chr '"' :: str "\x7d") := by
  have htext : bareCommandText c ++ 0 :: rest = str "\x7b\"cmd\":\"" ++ (c ++
      (str "\"\x7d" ++ 0 :: rest)) := by
    simp only [bareCommandText, List.append_assoc]
  rw [htext, cstr_append (by decide), cstr_append h0, cstr_append (by decide), cstr_zero_cons]
  rfl

/-- Behind the command comes the field of the value. -/
theorem firstInfix_value (t : List Byte) :
    firstInfix (str "\"value\":") (chr '"' :: (str ",\"value\":" ++ t)) = some 2 := by
  have hno : ¬ str "\"value\":" <+: chr '"' :: (str ",\"value\":" ++ t) := fun hpre => by
    have hcomma := (List.cons_prefix_cons.mp (List.cons_prefix_cons.mp hpre).2).1
    exact absurd hcomma (by decide)
  have hskip : firstInfix (str "\"value\":") (str "," ++ (str "\"value\":" ++ t)) =
      (firstInfix (str "\"value\":") (str "\"value\":" ++ t)).map (· + 1) :=
    firstInfix_append (by decide)
  rw [firstInfix_eq_zero (List.prefix_append _ _)] at hskip
  rw [firstInfix_cons hno]
  exact congrArg (Option.map (· + 1)) hskip

theorem firstInfix_bare : firstInfix (str "\"value\":") (chr '"' :: str "\x7d") = none := by decide

theorem commandText_drop :
    (commandText c v ++ 0 :: rest).drop (2 + (c.length + 8) + 8) =
      v ++ (str "\x7d" ++ 0 :: rest) := by
  have htext : commandText c v ++ 0 :: rest = (str "\x7b\"cmd\":\"" ++ c ++
      str "\",\"value\":") ++ (v ++ (str "\x7d" ++ 0 :: rest)) := by
    simp only [commandText, List.append_assoc]
  have hlen : 2 + (c.length + 8) + 8 =
      (str "\x7b\"cmd\":\"" ++ c ++ str "\",\"value\":").length := by
    simp only [List.length_append]
    have h8 : (str "\x7b\"cmd\":\"").length = 8 := rfl
    have h10 : (str "\",\"value\":").length = 10 := rfl
    omega
  rw [htext, hlen, List.drop_left]

variable {F : Type} [Zero F] (strtof : List Byte → F) {n : Nat} (cmdOut : Buf n) {cmdSize : Nat}
  (valueOut : Option F)

theorem parse_commandText (hquote : chr '"' ∉ c) (h0 : (0 : Byte) ∉ c) :
    cooJsonParseCommand strtof (commandText c v ++ 0 :: rest) cmdOut cmdSize valueOut =
      if c.length ≥ cmdSize then ⟨negEnomem, cmdOut, valueOut⟩
      else ⟨0, (cmdOut.memcpy ((commandText c v ++ 0 :: rest).drop 8) c.length).write c.length [0],
        valueOut.map fun _ => strtof (v ++ (str "\x7d" ++ 0 :: rest))⟩ := by
  have hcolon (t : List Byte) : ¬ str ":" <+: str ",\"value\":" ++ t := fun hpre =>
    absurd (List.cons_prefix_cons.mp hpre).1 (by decide)
  rw [cooJsonParseCommand_eq strtof cmdOut cmdSize valueOut (cstr_commandText v rest h0) hquote
    (hcolon _), firstInfix_value]
  dsimp only
  rw [commandText_drop]

theorem parse_bareCommandText (hquote : chr '"' ∉ c) (h0 : (0 : Byte) ∉ c) :
    cooJsonParseCommand strtof (bareCommandText c ++ 0 :: rest) cmdOut cmdSize valueOut =
      if c.length ≥ cmdSize then ⟨negEnomem, cmdOut, valueOut⟩
      else ⟨0, (cmdOut.memcpy ((bareCommandText c ++ 0 :: rest).drop 8) c.length).write c.length
        [0], valueOut.map fun _ => 0⟩ := by
  rw [cooJsonParseCommand_eq strtof cmdOut cmdSize valueOut (cstr_bareCommandText rest h0) hquote
    (by decide), firstInfix_bare]

/-- **The simple format.** The parser gives back the command, and the number that `strtof` reads
where the value starts, or 0 without a value. A command that does not fit, and any other error,
leaves the outputs. -/
theorem simpleCommand_inverts :
    (∀ c v rest : List Byte, chr '"' ∉ c → (0 : Byte) ∉ c → cmdSize ≤ n →
      (c.length < cmdSize →
        let r := cooJsonParseCommand strtof (commandText c v ++ 0 :: rest) cmdOut cmdSize valueOut
        r.rc = 0 ∧ r.cmdOut.cstr = c ∧
          r.valueOut = valueOut.map fun _ => strtof (v ++ (str "\x7d" ++ 0 :: rest))) ∧
      (cmdSize ≤ c.length →
        (cooJsonParseCommand strtof (commandText c v ++ 0 :: rest) cmdOut cmdSize valueOut).rc =
          negEnomem)) ∧
    (∀ c rest : List Byte, chr '"' ∉ c → (0 : Byte) ∉ c → cmdSize ≤ n →
      (c.length < cmdSize →
        let r := cooJsonParseCommand strtof (bareCommandText c ++ 0 :: rest) cmdOut cmdSize
          valueOut
        r.rc = 0 ∧ r.cmdOut.cstr = c ∧ r.valueOut = valueOut.map fun _ => 0) ∧
      (cmdSize ≤ c.length →
        (cooJsonParseCommand strtof (bareCommandText c ++ 0 :: rest) cmdOut cmdSize valueOut).rc =
          negEnomem)) ∧
    ∀ json : List Byte, (cooJsonParseCommand strtof json cmdOut cmdSize valueOut).rc ≠ 0 →
      (cooJsonParseCommand strtof json cmdOut cmdSize valueOut).cmdOut = cmdOut ∧
        (cooJsonParseCommand strtof json cmdOut cmdSize valueOut).valueOut = valueOut := by
  refine ⟨fun c v rest hquote h0 hn => ⟨fun hfits => ?_, fun hlong => ?_⟩,
    fun c rest hquote h0 hn => ⟨fun hfits => ?_, fun hlong => ?_⟩,
    fun json => cooJsonParseCommand_failed strtof cmdOut cmdSize valueOut⟩
  · rw [parse_commandText v rest strtof cmdOut valueOut hquote h0, if_neg (Nat.not_le.mpr hfits)]
    have hstored := command_stored cmdOut (cstr_commandText v rest h0) h0
      (Nat.lt_of_lt_of_le hfits hn)
    exact ⟨rfl, hstored, rfl⟩
  · rw [parse_commandText v rest strtof cmdOut valueOut hquote h0, if_pos hlong]
  · rw [parse_bareCommandText rest strtof cmdOut valueOut hquote h0,
      if_neg (Nat.not_le.mpr hfits)]
    have hstored := command_stored cmdOut (cstr_bareCommandText rest h0) h0
      (Nat.lt_of_lt_of_le hfits hn)
    exact ⟨rfl, hstored, rfl⟩
  · rw [parse_bareCommandText rest strtof cmdOut valueOut hquote h0, if_pos hlong]

end Forms

end Tib
