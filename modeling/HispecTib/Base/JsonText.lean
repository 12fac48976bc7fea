import HispecTib.Base.CString

/-!
# JSON texts of strings and objects

Values are strings and objects, without whitespace and without escapes: a string that needs one
has no text here, and a reader that meets a backslash gives up.

* `JsonVal.print`: the text of a value.
* `readValue`: a reader with a bound on its depth, which returns what it did not read.
* `decode_print`: what is printed from strings without quotes and backslashes is read back.
-/

open CLib

namespace JsonText

def quote : Byte := chr '"'
def backslash : Byte := chr '\\'
def comma : Byte := chr ','
def colon : Byte := chr ':'
def opening : Byte := chr '\x7b'
def closing : Byte := chr '\x7d'

mutual

inductive JsonVal where
  | string (s : List Byte)
  | object (members : Members)

/-- The members of an object, in order. -/
inductive Members where
  | nil
  | cons (name : List Byte) (value : JsonVal) (rest : Members)

end

/-- No character of `s` needs an escape or ends a string. -/
def Unescaped (s : List Byte) : Prop := ∀ c ∈ s, c ≠ quote ∧ c ≠ backslash

theorem Unescaped.of_all {s : List Byte} (h : s.all (fun c => c != quote && c != backslash)) :
    Unescaped s := by
  simpa [Unescaped, List.all_eq_true] using h

/-- A string between quotes. -/
def quoted (s : List Byte) : List Byte := quote :: s ++ [quote]

/-! ## Printing -/

mutual

def JsonVal.print : JsonVal → List Byte
  | .string s => quoted s
  | .object members => opening :: members.print

/-- The members and the closing brace. -/
def Members.print : Members → List Byte
  | .nil => [closing]
  | .cons name value rest => quoted name ++ colon :: (value.print ++ rest.printRest)

/-- The members behind another one, and the closing brace. -/
def Members.printRest : Members → List Byte
  | .nil => [closing]
  | .cons name value rest =>
    comma :: (quoted name ++ colon :: (value.print ++ rest.printRest))

end

mutual

/-- Every name and every string is unescaped. -/
def JsonVal.Unescaped : JsonVal → Prop
  | .string s => JsonText.Unescaped s
  | .object members => members.Unescaped

def Members.Unescaped : Members → Prop
  | .nil => True
  | .cons name value rest => JsonText.Unescaped name ∧ value.Unescaped ∧ rest.Unescaped

end

/-! ## Reading -/

/-- The characters up to the closing quote, and what is behind it. -/
def readChars : List Byte → Option (List Byte × List Byte)
  | [] => none
  | c :: cs =>
    if c = quote then some ([], cs)
    else if c = backslash then none
    else (readChars cs).map fun r => (c :: r.1, r.2)

/-- The text behind `c`. -/
def expect (c : Byte) : List Byte → Option (List Byte)
  | [] => none
  | d :: cs => if d = c then some cs else none

mutual

/-- A value, and what is behind it. -/
def readValue : Nat → List Byte → Option (JsonVal × List Byte)
  | 0, _ => none
  | _ + 1, [] => none
  | fuel + 1, c :: cs =>
    if c = quote then (readChars cs).map fun r => (.string r.1, r.2)
    else if c = opening then (readMembers fuel cs).map fun r => (.object r.1, r.2)
    else none

/-- The members behind an opening brace. -/
def readMembers : Nat → List Byte → Option (Members × List Byte)
  | 0, _ => none
  | _ + 1, [] => none
  | fuel + 1, c :: cs => if c = closing then some (.nil, cs) else readMember fuel (c :: cs)

/-- A member and the members behind it. -/
def readMember : Nat → List Byte → Option (Members × List Byte)
  | 0, _ => none
  | fuel + 1, text => do
    let text ← expect quote text
    let (name, text) ← readChars text
    let text ← expect colon text
    let (value, text) ← readValue fuel text
    let (rest, text) ← readRest fuel text
    return (.cons name value rest, text)

/-- The members behind a member. -/
def readRest : Nat → List Byte → Option (Members × List Byte)
  | 0, _ => none
  | _ + 1, [] => none
  | fuel + 1, c :: cs =>
    if c = closing then some (.nil, cs)
    else if c = comma then readMember fuel cs
    else none

end

/-- The value of a whole text. The calls on the way to a character are no more than the characters
before it, so the length is depth enough. -/
def decode (text : List Byte) : Option JsonVal :=
  match readValue text.length text with
  | some (value, []) => some value
  | _ => none

/-! ## Reading what was printed -/

section RoundTrip

variable {s name : List Byte}

theorem readChars_quoted (h : Unescaped s) (rest : List Byte) :
    readChars (s ++ quote :: rest) = some (s, rest) := by
  induction s with
  | nil => simp [readChars]
  | cons c s ih =>
    obtain ⟨⟨hq, hb⟩, hs⟩ := List.forall_mem_cons.mp h
    simp [readChars, hq, hb, ih hs]

/-- One member, when its value and the rest are read back. -/
theorem readMember_print {fuel : Nat} {value : JsonVal} {members : Members}
    {text tail rest : List Byte} (hn : Unescaped name)
    (hv : readValue fuel (text ++ tail) = some (value, tail))
    (hr : readRest fuel tail = some (members, rest)) :
    readMember (fuel + 1) (quoted name ++ colon :: (text ++ tail)) =
      some (.cons name value members, rest) := by
  have hchars := readChars_quoted hn (colon :: (text ++ tail))
  simp [readMember, quoted, expect, hchars, hv, hr]

theorem length_quoted (s : List Byte) : (quoted s).length = s.length + 2 := by simp [quoted]

mutual

theorem readValue_print : ∀ (value : JsonVal) (fuel : Nat) (rest : List Byte), value.Unescaped →
    value.print.length ≤ fuel → readValue fuel (value.print ++ rest) = some (value, rest)
  | .string s, 0, rest, _, hf => by simp [JsonVal.print, quoted] at hf
  | .string s, fuel + 1, rest, h, _ => by
    have hchars := readChars_quoted h rest
    simp [JsonVal.print, quoted, readValue, hchars]
  | .object members, 0, rest, _, hf => by simp [JsonVal.print] at hf
  | .object members, fuel + 1, rest, h, hf => by
    have hlen : members.print.length ≤ fuel := by simpa [JsonVal.print] using hf
    have hmembers := readMembers_print members fuel rest h hlen
    have hne : opening ≠ quote := by decide
    simp [JsonVal.print, readValue, hne, hmembers]

theorem readMembers_print : ∀ (members : Members) (fuel : Nat) (rest : List Byte),
    members.Unescaped → members.print.length ≤ fuel →
      readMembers fuel (members.print ++ rest) = some (members, rest)
  | .nil, 0, rest, _, hf => by simp [Members.print] at hf
  | .nil, fuel + 1, rest, _, _ => by simp [Members.print, readMembers]
  | .cons name value members, fuel, rest, ⟨hn, hv, hm⟩, hf => by
    simp only [Members.print, List.length_append, length_quoted, List.length_cons] at hf
    obtain ⟨fuel, rfl⟩ : ∃ k, fuel = k + 2 := ⟨fuel - 2, by omega⟩
    have hvalue := readValue_print value fuel (members.printRest ++ rest) hv (by omega)
    have hrest := readRest_print members fuel rest hm (by omega)
    have hmember := readMember_print hn hvalue hrest
    have hne : quote ≠ closing := by decide
    simp only [Members.print, List.append_assoc, List.cons_append]
    rw [quoted, List.cons_append, List.cons_append, readMembers, if_neg hne]
    exact hmember

theorem readRest_print : ∀ (members : Members) (fuel : Nat) (rest : List Byte),
    members.Unescaped → members.printRest.length ≤ fuel →
      readRest fuel (members.printRest ++ rest) = some (members, rest)
  | .nil, 0, rest, _, hf => by simp [Members.printRest] at hf
  | .nil, fuel + 1, rest, _, _ => by simp [Members.printRest, readRest]
  | .cons name value members, fuel, rest, ⟨hn, hv, hm⟩, hf => by
    simp only [Members.printRest, List.length_append, length_quoted, List.length_cons] at hf
    obtain ⟨fuel, rfl⟩ : ∃ k, fuel = k + 2 := ⟨fuel - 2, by omega⟩
    have hvalue := readValue_print value fuel (members.printRest ++ rest) hv (by omega)
    have hrest := readRest_print members fuel rest hm (by omega)
    have hmember := readMember_print hn hvalue hrest
    have hne : comma ≠ closing := by decide
    simp only [Members.printRest, List.append_assoc, List.cons_append]
    rw [readRest, if_neg hne, if_pos rfl]
    exact hmember

end

/-- **Round trip.** -/
theorem decode_print (value : JsonVal) (h : value.Unescaped) :
    decode value.print = some value := by
  have hread := readValue_print value value.print.length [] h le_rfl
  rw [List.append_nil] at hread
  rw [decode, hread]

end RoundTrip

end JsonText
