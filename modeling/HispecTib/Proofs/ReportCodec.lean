import HispecTib.Base.JsonText
import HispecTib.Proofs.Report

/-!
# The report as a JSON text

`reportText_eq_print`: the text of the report is the JSON text of an object with one member, which
lists the routes. `memsrouteGet_codec`: the handler sends this text whole or refuses, and what it
sends is read back.
-/

open CLib JsonText

namespace Tib

/-! ## Encoding -/

/-- The routes as members: the input is the name, the output is the value. -/
def routeMembers : List MemsRouteKey → Members
  | [] => .nil
  | key :: keys => .cons (cstr key.inputName) (.string (cstr key.outputName)) (routeMembers keys)

def reportValue (keys : List MemsRouteKey) : JsonVal :=
  .object (.cons (str "active_routes") (.object (routeMembers keys)) .nil)

theorem entryText_eq_quoted (key : MemsRouteKey) (text : List Byte) :
    entryText key ++ text =
      quoted (cstr key.inputName) ++ colon :: (quoted (cstr key.outputName) ++ text) := by
  have hquote : str "\"" = [quote] := rfl
  have hcolon : str "\":\"" = [quote, colon, quote] := rfl
  simp [entryText, quoted, hquote, hcolon]

theorem printRest_routeMembers (keys : List MemsRouteKey) :
    (routeMembers keys).printRest =
      (keys.map fun key => str "," ++ entryText key).flatten ++ [closing] := by
  induction keys with
  | nil => rfl
  | cons key keys ih =>
    have hcomma : str "," = [comma] := rfl
    simp only [routeMembers, Members.printRest, JsonVal.print, ih, List.map_cons,
      List.flatten_cons, List.append_assoc, entryText_eq_quoted, hcomma, List.cons_append, List.nil_append]

theorem print_routeMembers (keys : List MemsRouteKey) :
    (routeMembers keys).print = entriesText keys ++ [closing] := by
  cases keys with
  | nil => rfl
  | cons key keys =>
    rw [entriesText_cons, List.append_assoc, entryText_eq_quoted, ← printRest_routeMembers]
    rfl

theorem reportText_eq_print (keys : List MemsRouteKey) :
    reportText keys = (reportValue keys).print := by
  have hopen : str "\x7b\"active_routes\":\x7b" =
      opening :: (quoted (str "active_routes") ++ [colon, opening]) := rfl
  have hclose : str "\x7d\x7d" = [closing, closing] := rfl
  simp [reportText, reportValue, JsonVal.print, Members.print, Members.printRest,
    print_routeMembers, hopen, hclose]

/-! ## Decoding -/

/-- The members of an object whose values are all strings. -/
def memberStrings : Members → Option (List (List Byte × List Byte))
  | .nil => some []
  | .cons name (.string s) rest => (memberStrings rest).map ((name, s) :: ·)
  | .cons _ (.object _) _ => none

/-- The pairs of input and output in a report. -/
def decodeReport (text : List Byte) : Option (List (List Byte × List Byte)) :=
  match decode text with
  | some (.object (.cons name (.object members) .nil)) =>
    if name = str "active_routes" then memberStrings members else none
  | _ => none

/-- Neither name of the route needs an escape. -/
def MemsRouteKey.Unescaped (key : MemsRouteKey) : Prop :=
  JsonText.Unescaped (cstr key.inputName) ∧ JsonText.Unescaped (cstr key.outputName)

theorem memberStrings_routeMembers (keys : List MemsRouteKey) :
    memberStrings (routeMembers keys) =
      some (keys.map fun key => (cstr key.inputName, cstr key.outputName)) := by
  induction keys with
  | nil => rfl
  | cons key keys ih => simp [routeMembers, memberStrings, ih]

theorem routeMembers_unescaped {keys : List MemsRouteKey} (h : ∀ key ∈ keys, key.Unescaped) :
    (routeMembers keys).Unescaped := by
  induction keys with
  | nil => trivial
  | cons key keys ih =>
    obtain ⟨⟨hin, hout⟩, hrest⟩ := List.forall_mem_cons.mp h
    exact ⟨hin, hout, ih hrest⟩

theorem decodeReport_reportText {keys : List MemsRouteKey} (h : ∀ key ∈ keys, key.Unescaped) :
    decodeReport (reportText keys) =
      some (keys.map fun key => (cstr key.inputName, cstr key.outputName)) := by
  have hname : JsonText.Unescaped (str "active_routes") := .of_all rfl
  have hvalue : (reportValue keys).Unescaped :=
    ⟨hname, routeMembers_unescaped h, trivial⟩
  rw [decodeReport, reportText_eq_print, decode_print _ hvalue]
  simp [reportValue, memberStrings_routeMembers]

/-! ## The reply -/

/-- As long as every print fits, the offset stays inside the buffer. -/
theorem prints_offset {size : Nat} (prints : List (List Byte)) {buf buf' : List Byte}
    (h : buf.length < size) (hrun : prints.foldlM (appendText size) buf = some buf') :
    buf'.length < size := by
  rw [prints_fit prints h, fit] at hrun
  split at hrun
  · rename_i hlt
    exact Option.some.inj hrun ▸ hlt
  · cases hrun

/-- **The report, complete or refused.** The handler makes the prints of the report one after the
other, and after each of them the offset is below the size of the buffer. It replies with the whole
text if that is shorter than the buffer, and with the overflow error otherwise; and a text of names
that need no escapes is read back as the list of the active routes. -/
theorem memsrouteGet_codec (cmd : Command) (w : World) :
    let keys := matchingKeys w.switches w.router w.router.routes
    let start := str "\x7b\"active_routes\":\x7b"
    let om := (memsrouteGet cmd w).val
    (om.msgType = .respOk ↔ (reportText keys).length < maxPayloadLen) ∧
      (om.msgType = .respOk →
        om.payload.cstr = reportText keys ∧ om.payloadLen = (reportText keys).length) ∧
      (om.msgType ≠ .respOk → om = errorReply cmd "overflow building JSON") ∧
      (om = match (reportPrints keys).foldlM (appendText maxPayloadLen) start with
        | none => errorReply cmd "overflow building JSON"
        | some text => msgBuilder cmd .respOk text) ∧
      (∀ n buf, ((reportPrints keys).take n).foldlM (appendText maxPayloadLen) start = some buf →
        buf.length < maxPayloadLen) ∧
      ((∀ key ∈ keys, key.Unescaped) → om.msgType = .respOk →
        decodeReport om.payload.cstr =
          some (keys.map fun key => (cstr key.inputName, cstr key.outputName))) := by
  intro keys start om
  have hstart : start.length < maxPayloadLen := by decide
  have hom : om = match fit maxPayloadLen (reportText keys) with
      | none => errorReply cmd "overflow building JSON"
      | some text => msgBuilder cmd .respOk text := memsrouteGet_eq cmd w
  have hoffset (n : Nat) (buf : List Byte) :
      ((reportPrints keys).take n).foldlM (appendText maxPayloadLen) start = some buf →
        buf.length < maxPayloadLen := prints_offset _ hstart
  by_cases hlt : (reportText keys).length < maxPayloadLen
  · rw [fit_of_lt hlt] at hom
    have hstrlen := strlen_le (reportText keys)
    have hpayload : om.payload.cstr = reportText keys := by
      rw [hom, msgBuilder_payload cmd .respOk (hstrlen.trans_lt hlt),
        cstr_eq_self (zero_notMem_reportText keys)]
    have hlen : om.payloadLen = (reportText keys).length := by
      rw [hom]
      exact congrArg List.length (cstr_eq_self (zero_notMem_reportText keys))
    have hok : om.msgType = .respOk := by rw [hom]; rfl
    refine ⟨iff_of_true hok hlt, fun _ => ⟨hpayload, hlen⟩, fun hne => absurd hok hne,
      memsrouteGet_prints cmd w, hoffset, fun hun _ => ?_⟩
    rw [hpayload, decodeReport_reportText hun]
  · rw [fit, if_neg hlt] at hom
    have herr : om.msgType ≠ .respOk := by
      rw [hom]
      exact (by decide : MsgType.respError ≠ MsgType.respOk)
    exact ⟨iff_of_false herr hlt, fun hok => absurd hok herr, fun _ => hom,
      memsrouteGet_prints cmd w, hoffset, fun _ hok => absurd hok herr⟩

end Tib
