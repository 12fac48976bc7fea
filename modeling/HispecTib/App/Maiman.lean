import HispecTib.App.World

/-!
# Maiman laser driver (`maiman.h`, `maiman.c`)

The register table, the lookup by name, and the two Modbus accesses that the command handlers use.
-/

open CLib

namespace Tib

structure MaimanRegister where
  name : List Byte
  address : UInt16

def registerTable : List MaimanRegister := [
  ⟨str "TEC_TEMPERATURE_MEASURED", 0x1000⟩,
  ⟨str "PCB_TEMPERATURE_MEASURED", 0x1001⟩,
  ⟨str "TEC_TEMPERATURE_VALUE", 0x1002⟩,
  ⟨str "CURRENT_MEASURED", 0x1003⟩,
  ⟨str "CURRENT", 0x1004⟩,
  ⟨str "VOLTAGE_MEASURED", 0x1005⟩,
  ⟨str "CURRENT_MAX_LIMIT", 0x1006⟩,
  ⟨str "CURRENT_PROTECTION_THRESHOLD", 0x1007⟩,
  ⟨str "CURRENT_SET_CALIBRATION", 0x1008⟩,
  ⟨str "NTC_COEFFICIENT", 0x1009⟩,
  ⟨str "TEC_CURRENT_MEASURED", 0x100A⟩,
  ⟨str "TEC_VOLTAGE", 0x100B⟩,
  ⟨str "SERIAL_NUMBER", 0x100C⟩,
  ⟨str "FREQUENCY", 0x100D⟩,
  ⟨str "DURATION", 0x100E⟩,
  ⟨str "STATE_OF_DEVICE_COMMAND", 0x1010⟩]

/-- The names are strings that can stand in a key and in a reply. -/
theorem registerTable_names : ∀ r ∈ registerTable, cstr r.name = r.name ∧ 0 < r.name.length ∧
    (chr '/' ∉ r.name.map tolower ∧ chr '"' ∉ r.name.map tolower) ∧
    ¬ EqNoCase (str "error") r.name := by decide

/-- `strcaseeq`: the loop ends at a difference or at the first NUL of either text, and then the
two current characters decide. -/
def strcaseeq : List Byte → List Byte → Bool
  | a :: as, b :: bs =>
    if a = 0 ∨ b = 0 then a = b
    else if tolower a ≠ tolower b then false
    else strcaseeq as bs
  | as, bs => as.headD 0 = bs.headD 0

/-- The comparison ignores the case of letters. -/
theorem strcaseeq_iff (a b : List Byte) : strcaseeq a b = true ↔ EqNoCase (cstr a) (cstr b) := by
  have hnil {y : Byte} (hy : y ≠ 0) (b : List Byte) : ¬ EqNoCase [] (cstr (y :: b)) := by
    simp [EqNoCase, cstr_cons hy]
  induction a generalizing b with
  | nil =>
    cases b with
    | nil => exact iff_of_true rfl rfl
    | cons y b =>
      by_cases hy : y = 0
      · simp [strcaseeq, hy, EqNoCase]
      · exact iff_of_false (by simpa [strcaseeq] using Ne.symm hy) (hnil hy b)
  | cons x a ih =>
    cases b with
    | nil =>
      by_cases hx : x = 0
      · simp [strcaseeq, hx, EqNoCase]
      · exact iff_of_false (by simpa [strcaseeq] using hx) fun h => hnil hx a h.symm
    | cons y b =>
      rw [strcaseeq]
      by_cases hx : x = 0
      · by_cases hy : y = 0
        · simp [hx, hy, EqNoCase]
        · rw [if_pos (Or.inl hx), hx, cstr_zero_cons]
          exact iff_of_false (by simpa using Ne.symm hy) (hnil hy b)
      · by_cases hy : y = 0
        · rw [if_pos (Or.inr hy), hy, cstr_zero_cons]
          exact iff_of_false (by simpa using hx) fun h => hnil hx a h.symm
        · rw [if_neg (not_or.mpr ⟨hx, hy⟩), cstr_cons hx, cstr_cons hy]
          by_cases hne : tolower x = tolower y
          · simpa [hne, EqNoCase] using ih b
          · simp [hne, EqNoCase]

/-- `*address_out` when the name is found. -/
def maimanGetRegisterAddress (name : List Byte) : Option UInt16 :=
  (registerTable.find? fun r => strcaseeq name r.name).map (·.address)

/-- The loop of `maiman_get_register_address` over what is left of the table: what it returns, and
`*address_out` afterwards. There is no address when `address_out` is `NULL`. -/
def lookupRegister (name : List Byte) :
    List MaimanRegister → Option UInt16 → Bool × Option UInt16
  | [], addressOut => (false, addressOut)
  | r :: rs, addressOut =>
    if strcaseeq name r.name then (true, addressOut.map fun _ => r.address)
    else lookupRegister name rs addressOut

/-- `maiman_get_register_address` with its pointer. -/
def maimanGetRegisterAddressOut (name : List Byte) (addressOut : Option UInt16) :
    Bool × Option UInt16 :=
  lookupRegister name registerTable addressOut

/-- The loop returns with the first entry of that name. -/
theorem lookupRegister_eq (name : List Byte) (rs : List MaimanRegister)
    (addressOut : Option UInt16) : lookupRegister name rs addressOut =
      match rs.find? fun r => strcaseeq name r.name with
      | some r => (true, addressOut.map fun _ => r.address)
      | none => (false, addressOut) := by
  induction rs with
  | nil => rfl
  | cons r rs ih =>
    rw [lookupRegister, List.find?_cons]
    cases strcaseeq name r.name with
    | true => rfl
    | false => exact ih

/-- The handlers get the address that the function writes. -/
theorem maimanGetRegisterAddress_eq (name : List Byte) (old : UInt16) :
    maimanGetRegisterAddress name = (if (maimanGetRegisterAddressOut name (some old)).1 then
      (maimanGetRegisterAddressOut name (some old)).2 else none) := by
  rw [maimanGetRegisterAddressOut, lookupRegister_eq, maimanGetRegisterAddress]
  cases registerTable.find? fun r => strcaseeq name r.name <;> rfl

/-- `maiman_driver_t`. -/
structure MaimanDriver where
  nodeId : Nat

variable (env : Env)

/-- The success flag and `*value`, which is `value` before the call. -/
def maimanReadU16 (drv : MaimanDriver) (address value : UInt16) : Prog World (Bool × UInt16) := do
  let (err, value) ← modbusReadHoldingRegs env drv.nodeId address value
  if err < 0 then return (false, value)
  return (true, value)

def maimanWriteU16 (drv : MaimanDriver) (address value : UInt16) : Prog World Bool := do
  let err ← modbusWriteHoldingRegs env drv.nodeId address value
  if err < 0 then return false
  return true

end Tib
