import HispecTib.App.World

/-!
# Message types, key pairs and commands (`json_utils.c` and its twins in `command.c`)

`coo_json_parse_msg_type` and `coo_json_parse_key_pair` are copies of `parse_msg_type_from_payload`
and `parse_key_pair`. The common bodies are `parseMsgType`, over the two values that the caller's
enumeration has for "get" and "set", and `splitKeyPair`; each function is its instance.

`cooJsonParseCommand` searches the text for its two fields; `strtof` is an argument, over any type
of numbers.
-/

open CLib

namespace Tib

/-! ## Message type -/

section MsgType

variable {α : Type} (get set : α)

/-- The two bounded comparisons on the decoded field. -/
def msgTypeOf (field : List Byte) : Option α :=
  if strncasecmp field (str "get") 4 = 0 then some get
  else if strncasecmp field (str "set") 4 = 0 then some set
  else none

/-- The descriptor of `struct json_type_msg`. -/
def msgTypeDescr : List JsonDescr := [⟨str "msg_type", .string⟩]

/-- `*msg_type_out` when the function returns true, and the payload text afterwards. -/
def parseMsgType (parse : JsonObjParse) (addr : Nat) (payload : List Byte) :
    Option α × List Byte :=
  let r := parse addr (cstr payload) msgTypeDescr
  (if r.rc < 0 then none else msgTypeOf get set (r.charsField 0 8).data, r.text)

end MsgType

/-- `enum coo_msg_type`. -/
inductive CooMsgType where
  | get
  | set
  | respOk
  | respError
deriving DecidableEq

def cooJsonParseMsgType (parse : JsonObjParse) (addr : Nat) (payload : List Byte) :
    Option CooMsgType × List Byte :=
  parseMsgType .get .set parse addr payload

/-! ## Key pairs -/

/-- The outcome of splitting a key: the return code, `out_name` and `out_setting`. -/
structure KeyPair (n m : Nat) where
  rc : Int
  name : Buf n
  setting : Buf m

def splitKeyPair {n m : Nat} (key : List Byte) (outName : Buf n) (maxName : Nat)
    (outSetting : Buf m) (maxSetting : Nat) : KeyPair n m :=
  match strchr key (chr '/') with
  | none => ⟨-1, outName, outSetting⟩
  | some nameLen =>
    if nameLen = 0 ∨ nameLen ≥ maxName then ⟨-2, outName, outSetting⟩
    else
      let outName := (outName.memcpy key nameLen).write nameLen [0]
      let settingStart := key.drop (nameLen + 1)
      let settingLen := strcspn settingStart (str "/")
      if settingLen = 0 ∨ settingLen ≥ maxSetting then ⟨-3, outName, outSetting⟩
      else ⟨0, outName, (outSetting.memcpy settingStart settingLen).write settingLen [0]⟩

/-- What `strcspn` finds behind the first slash: the text up to the next one. -/
theorem strcspn_behind {key a b : List Byte} (hkey : cstr key = a ++ chr '/' :: b) :
    cstr (key.drop (a.length + 1)) = b ∧
      strcspn (key.drop (a.length + 1)) (str "/") = (b.takeWhile (· ≠ chr '/')).length := by
  have hle : a.length + 1 ≤ strlen key := by
    rw [strlen, hkey, List.length_append, List.length_cons]
    omega
  have hrest : cstr (key.drop (a.length + 1)) = b := by
    rw [cstr_drop hle, hkey, ← List.drop_drop, List.drop_left]
    rfl
  have hset : (fun x : Byte => decide (x ∉ str "/")) = fun x => decide (x ≠ chr '/') :=
    funext fun x => decide_eq_decide.mpr (not_congr List.mem_singleton)
  exact ⟨hrest, by rw [strcspn, hrest, hset]⟩

def cooJsonParseKeyPair {n m : Nat} (key : List Byte) (outName : Buf n) (maxName : Nat)
    (outSetting : Buf m) (maxSetting : Nat) : KeyPair n m :=
  splitKeyPair key outName maxName outSetting maxSetting

/-! ## Commands -/

/-- `-EINVAL`. -/
def negEinval : Int := -22

/-- `-ENOMEM`. -/
def negEnomem : Int := -12

/-- The outcome of parsing a command: the return code, `cmd_out` and `*value_out`. There is no
number when `value_out` is `NULL`. -/
structure ParsedCommand (n : Nat) (F : Type) where
  rc : Int
  cmdOut : Buf n
  valueOut : Option F

def cooJsonParseCommand {F : Type} [Zero F] (strtof : List Byte → F) {n : Nat}
    (jsonStr : List Byte) (cmdOut : Buf n) (cmdSize : Nat) (valueOut : Option F) :
    ParsedCommand n F :=
  match strstr jsonStr (str "\"cmd\":\"") with
  | none => ⟨negEinval, cmdOut, valueOut⟩
  | some cmdField =>
    let cmdStart := jsonStr.drop (cmdField + 7)
    match strchr cmdStart (chr '"') with
    | none => ⟨negEinval, cmdOut, valueOut⟩
    | some cmdLen =>
      if cmdLen ≥ cmdSize then ⟨negEnomem, cmdOut, valueOut⟩
      else
        let cmdOut := (cmdOut.memcpy cmdStart cmdLen).write cmdLen [0]
        ⟨0, cmdOut, valueOut.map fun _ =>
          match strstr jsonStr (str "\"value\":") with
          | some valField => strtof (jsonStr.drop (valField + 8))
          | none => 0⟩

end Tib
