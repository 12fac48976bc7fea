import HispecTib.App.MaimanReadings
import HispecTib.Proofs.Addressing

/-!
# Readings and setpoints of the laser drivers

* `float_getter_failed_iff`: no reading is taken for an error, and an exception code gives one.
* `setpoint_kept`: a setpoint is read back after any calls that do not set it again, up to one count
  and the rounding of the two conversions.
* `setpoint_drift`: what happens to a register that is read and written back again and again. Each
  time it keeps its value or loses one count; `LosesCount` says which values do.
-/

namespace Tib

variable {env : Env} {drv : MaimanDriver} {w : World}

/-! ## Failed reads -/

/-- The answer to a read of a register in `w`. -/
def readAnswer (env : Env) (drv : MaimanDriver) (w : World) (register : UInt16) : Int :=
  env.answer w.trace.length (.modbusReadHoldingRegs drv.nodeId register)

theorem floatGetter_val (g : FloatGetter) : (g.run env drv w).val =
    if readAnswer env drv w g.register < 0 then g.failed
    else g.reading (if readAnswer env drv w g.register = 0 then w.regs drv.nodeId g.register
      else env.raw) := by
  rw [FloatGetter.run, Prog.bind_run, maimanReadU16_run, readAnswer]
  by_cases h : env.answer w.trace.length (.modbusReadHoldingRegs drv.nodeId g.register) < 0 <;>
    simp [h]

/-- Tenths of a degree are no sentinel: `-273.15` lies between two of them. -/
theorem temperature_ne_failed (k : ℤ) (hk : -32768 ≤ k) (hk' : k < 32768) :
    Binary32.round ((k : ℚ) / 10) ≠ Binary32.round (-27315 / 100) := by
  intro heq
  obtain ⟨hlo, hhi⟩ := abs_le.mp (Binary32.round_error ((k : ℚ) / 10))
  obtain ⟨hlo', hhi'⟩ := abs_le.mp (Binary32.round_error (-27315 / 100))
  rw [heq] at hlo hhi
  have habs : |(k : ℚ) / 10| ≤ 32768 / 10 := by
    have h : (-32768 : ℚ) ≤ k := by exact_mod_cast hk
    have h' : (k : ℚ) < 32768 := by exact_mod_cast hk'
    rw [abs_le]
    constructor <;> linarith
  have hsentinel : |(-27315 / 100 : ℚ)| = 27315 / 100 := by norm_num
  rw [hsentinel] at hlo' hhi'
  rcases lt_or_ge (2 * k + 5463) 0 with hneg | hpos
  · have h : (2 * k + 5463 : ℚ) ≤ -1 := by exact_mod_cast (by omega : 2 * k + 5463 ≤ -1)
    linarith
  · have h : (1 : ℚ) ≤ 2 * k + 5463 := by exact_mod_cast (by omega : 1 ≤ 2 * k + 5463)
    linarith

theorem reading_ne_failed (g : FloatGetter) (raw : UInt16) : g.reading raw ≠ g.failed := by
  cases g with
  | scaled register divider =>
    have hnonneg : 0 ≤ Binary32.round ((raw.toNat : ℚ) / divider) :=
      Binary32.round_nonneg (div_nonneg (Nat.cast_nonneg _) (Nat.cast_nonneg _))
    exact (neg_one_lt_zero.trans_le hnonneg).ne'
  | temperature register =>
    refine temperature_ne_failed (maimanToSigned raw) ?_ ?_
    · exact raw.toInt16.minValue_le_toInt
    · exact raw.toInt16.toInt_lt

/-- **An error is told from every reading,** and an exception code of the device is not: the getter
returns the reading of its uninitialised `raw`. -/
theorem float_getter_failed_iff (g : FloatGetter) (env : Env) (drv : MaimanDriver) (w : World) :
    let rc := readAnswer env drv w g.register
    let v := (g.run env drv w).val
    (v = g.failed ↔ rc < 0) ∧ (rc = 0 → v = g.reading (w.regs drv.nodeId g.register)) ∧
      (0 < rc → v = g.reading env.raw ∧ v ≠ g.failed) := by
  intro rc v
  have hv : v = if rc < 0 then g.failed
      else g.reading (if rc = 0 then w.regs drv.nodeId g.register else env.raw) := floatGetter_val g
  refine ⟨?_, fun hzero => ?_, fun hpos => ?_⟩
  · rw [hv]
    split_ifs with h
    · exact iff_of_true rfl h
    all_goals exact iff_of_false (reading_ne_failed g _) h
  · rw [hv, if_neg hzero.ge.not_gt, if_pos hzero]
  · rw [hv, if_neg hpos.le.not_gt, if_neg hpos.ne']
    exact ⟨rfl, reading_ne_failed g _⟩

/-! ## Calls of the driver -/

inductive Setpoint where
  | current
  | frequency
  | duration
deriving DecidableEq

namespace Setpoint

def register : Setpoint → UInt16
  | current => regCurrent
  | frequency => regFrequency
  | duration => regDuration

def divider : Setpoint → Nat
  | current => dividerCurrent
  | frequency => dividerFrequency
  | duration => dividerDuration

def set (env : Env) (drv : MaimanDriver) :
    (p : Setpoint) → Scalable p.divider → Prog World Bool
  | current => maimanSetCurrent env drv
  | frequency => maimanSetFrequency env drv
  | duration => maimanSetDuration env drv

/-- The getter; that of the current returns `false` or stores its reading. -/
def get (env : Env) (drv : MaimanDriver) : Setpoint → Prog World (Option Rat)
  | current => maimanGetCurrent env drv
  | frequency => do return some (← maimanGetFrequency env drv)
  | duration => do return some (← maimanGetDuration env drv)

end Setpoint

/-- A call of the driver. -/
inductive DriverCall where
  | float (g : FloatGetter)
  | current
  | raw (register : UInt16)
  | bit (bitmask : UInt16)
  | set (p : Setpoint) (x : Scalable p.divider)
  | start
  | stop

/-- The call, without its result. -/
def DriverCall.run (env : Env) (drv : MaimanDriver) : DriverCall → Prog World Unit
  | float g => do let _ ← g.run env drv
  | current => do let _ ← maimanGetCurrent env drv
  | raw register => do let _ ← getRaw env drv register
  | bit bitmask => do let _ ← maimanIsBitSet env drv bitmask
  | set p x => do let _ ← p.set env drv x
  | start => do let _ ← maimanStartDevice env drv
  | stop => do let _ ← maimanStopDevice env drv

theorem set_eq (p : Setpoint) (x : Scalable p.divider) :
    p.set env drv x = maimanWriteU16 env drv p.register x.raw := by
  cases p <;> rfl

theorem get_val (p : Setpoint) (h : readAnswer env drv w p.register = 0) :
    (p.get env drv w).val =
      some (Binary32.round ((w.regs drv.nodeId p.register).toNat / p.divider)) := by
  have hfloat (g : FloatGetter) (hg : readAnswer env drv w g.register = 0) :
      (g.run env drv w).val = g.reading (w.regs drv.nodeId g.register) := by
    rw [floatGetter_val, if_neg hg.ge.not_gt, if_pos hg]
  cases p with
  | current =>
    have hok : env.answer w.trace.length (.modbusReadHoldingRegs drv.nodeId regCurrent) = 0 := h
    rw [Setpoint.get, maimanGetCurrent, Prog.bind_run, maimanReadU16_run]
    simp [hok, Setpoint.register, Setpoint.divider]
  | frequency => exact congrArg some (hfloat (.scaled regFrequency dividerFrequency) h)
  | duration => exact congrArg some (hfloat (.scaled regDuration dividerDuration) h)

/-! ## Setpoints read back -/

/-- The register that a call writes, and the value. -/
def DriverCall.writes : DriverCall → Option (UInt16 × UInt16)
  | set p x => some (p.register, x.raw)
  | start => some (regStateOfDeviceCommand, modbusStartCommandValue)
  | stop => some (regStateOfDeviceCommand, modbusStopCommandValue)
  | float _ | current | raw _ | bit _ => none

theorem read_regs (drv : MaimanDriver) (address : UInt16) :
    (maimanReadU16 env drv address env.raw w).post.regs = w.regs := by
  simp only [maimanReadU16_run, World.afterCall]
  split <;> rfl

theorem write_regs (drv : MaimanDriver) (address value : UInt16) {node : Nat} {r : UInt16}
    (h : ¬ (drv.nodeId = node ∧ address = r)) :
    (maimanWriteU16 env drv address value w).post.regs node r = w.regs node r := by
  simp only [maimanWriteU16_run, World.afterCall]
  split
  · by_cases hnode : node = drv.nodeId
    · have hr : r ≠ address := fun hr => h ⟨hnode.symm, hr.symm⟩
      subst hnode
      simp [World.apply, World.record, hr]
    · simp [World.apply, World.record, hnode]
  · rfl

theorem write_regs_self (drv : MaimanDriver) (address value : UInt16)
    (h : env.answer w.trace.length (.modbusWriteHoldingRegs drv.nodeId address value) = 0) :
    (maimanWriteU16 env drv address value w).post.regs drv.nodeId address = value := by
  simp [maimanWriteU16_run, World.afterCall, h, World.apply, World.record]

/-- A call changes no register but the one it writes. -/
theorem call_regs (c : DriverCall) {node : Nat} {r : UInt16}
    (h : drv.nodeId = node → ∀ write ∈ c.writes, write.1 ≠ r) :
    (c.run env drv w).post.regs node r = w.regs node r := by
  have hread (address : UInt16) : (maimanReadU16 env drv address env.raw w).post.regs = w.regs :=
    read_regs drv address
  cases c with
  | float g =>
    simp only [DriverCall.run, FloatGetter.run, Prog.bind_run, Prog.ite_run]
    split <;> simp [hread]
  | current =>
    simp only [DriverCall.run, maimanGetCurrent, Prog.bind_run, Prog.ite_run]
    split <;> simp [hread]
  | raw register =>
    simp only [DriverCall.run, getRaw, Prog.bind_run, Prog.ite_run]
    split <;> simp [hread]
  | bit bitmask =>
    simp only [DriverCall.run, maimanIsBitSet, maimanGetRawStatus, getRaw, Prog.bind_run,
      Prog.ite_run]
    split <;> simp [hread]
  | set p x =>
    rw [DriverCall.run, set_eq]
    exact write_regs drv p.register x.raw fun ⟨hnode, hr⟩ => h hnode (_, _) rfl hr
  | start =>
    exact write_regs drv _ _ fun ⟨hnode, hr⟩ => h hnode (_, modbusStartCommandValue) rfl hr
  | stop =>
    exact write_regs drv _ _ fun ⟨hnode, hr⟩ => h hnode (_, modbusStopCommandValue) rfl hr

/-- Calls, each of one of the drivers on the bus. -/
def runCalls (env : Env) (calls : List (MaimanDriver × DriverCall)) (w : World) : World :=
  (Prog.mapList (fun call => call.2.run env call.1) calls w).post

/-- None of the calls sets `p` of `drv`. -/
def Leaves (calls : List (MaimanDriver × DriverCall)) (drv : MaimanDriver) (p : Setpoint) : Prop :=
  ∀ call ∈ calls, call.1.nodeId = drv.nodeId → ∀ x, call.2 ≠ .set p x

theorem Setpoint.register_injective {p q : Setpoint} (h : p.register = q.register) : p = q := by
  cases p <;> cases q <;> first | rfl | exact absurd h (by decide)

theorem Setpoint.register_ne_command (p : Setpoint) : regStateOfDeviceCommand ≠ p.register := by
  cases p <;> decide

theorem runCalls_regs {p : Setpoint} {calls : List (MaimanDriver × DriverCall)}
    (h : Leaves calls drv p) (w : World) :
    (runCalls env calls w).regs drv.nodeId p.register = w.regs drv.nodeId p.register := by
  have hkeeps : Keeps (fun w : World => w.regs drv.nodeId p.register)
      (Prog.mapList (fun call => call.2.run env call.1) calls) := by
    refine Keeps.mapList fun call hcall w => call_regs call.2 fun hnode write hwrite => ?_
    have hleaves := h call hcall hnode
    cases hc : call.2 with
    | set q x =>
      rw [hc] at hwrite hleaves
      obtain rfl := Option.some.inj hwrite
      intro hr
      obtain rfl := Setpoint.register_injective hr
      exact hleaves x rfl
    | start | stop =>
      rw [hc] at hwrite
      obtain rfl := Option.some.inj hwrite
      exact p.register_ne_command
    | float | current | raw | bit =>
      rw [hc] at hwrite
      cases hwrite
  exact hkeeps w

theorem Scalable.raw_toNat {divider : Nat} (x : Scalable divider) (hx : 0 ≤ x.value) :
    (x.raw.toNat : ℤ) = ⌊Binary32.round (x.value * divider)⌋ := by
  have hround : 0 ≤ Binary32.round (x.value * divider) :=
    Binary32.round_nonneg (mul_nonneg hx (Nat.cast_nonneg _))
  have hfloor : 0 ≤ ⌊Binary32.round (x.value * divider)⌋ := Int.floor_nonneg.mpr hround
  have hlt : ⌊Binary32.round (x.value * divider)⌋ < 65536 :=
    Int.floor_lt.mpr (by exact_mod_cast x.fits.2)
  have hraw : x.raw = UInt16.ofNat ⌊Binary32.round (x.value * divider)⌋.toNat := rfl
  rw [hraw, UInt16.toNat_ofNat', Nat.mod_eq_of_lt (by omega), Int.toNat_of_nonneg hfloor]

/-- A setpoint and the reading of its register. -/
theorem reading_near {divider : Nat} (hd : 0 < divider) (x : Scalable divider) (hx : 0 ≤ x.value) :
    let v := Binary32.round (x.raw.toNat / divider)
    x.value * (1 - 1 / 2 ^ 23) - 1 / divider ≤ v ∧ v ≤ x.value * (1 + 1 / 2 ^ 22) := by
  intro v
  have hd' : (0 : ℚ) < divider := Nat.cast_pos.mpr hd
  have hraw : ((x.raw.toNat : ℤ) : ℚ) = ⌊Binary32.round (x.value * divider)⌋ :=
    congrArg Int.cast (x.raw_toNat hx)
  rw [Int.cast_natCast] at hraw
  have hscaled : 0 ≤ x.value * divider := mul_nonneg hx hd'.le
  have hle := Int.floor_le (Binary32.round (x.value * divider))
  have hlt := Int.lt_floor_add_one (Binary32.round (x.value * divider))
  rw [← hraw] at hle hlt
  obtain ⟨hlo, hhi⟩ := abs_le.mp (Binary32.round_error (x.value * divider))
  obtain ⟨hlo', hhi'⟩ := abs_le.mp (Binary32.round_error (x.raw.toNat / divider))
  rw [abs_of_nonneg hscaled] at hlo hhi
  rw [abs_of_nonneg (div_nonneg (Nat.cast_nonneg _) hd'.le)] at hlo' hhi'
  have hcount : (x.raw.toNat : ℚ) / divider * divider = x.raw.toNat :=
    div_mul_cancel₀ _ hd'.ne'
  constructor
  · have hquot : x.value * (1 - 1 / 2 ^ 24) - 1 / divider ≤ x.raw.toNat / divider := by
      rw [le_div_iff₀ hd', sub_mul, div_mul_cancel₀ _ hd'.ne']
      linarith
    have hinv : 0 ≤ 1 / (divider : ℚ) := by positivity
    linarith
  · have hquot : (x.raw.toNat : ℚ) / divider ≤ x.value * (1 + 1 / 2 ^ 24) := by
      rw [div_le_iff₀ hd']
      linarith
    linarith

/-- The reading of a count, as a setpoint. -/
def Scalable.ofCount {divider : Nat} (hd : 0 < divider) (raw : UInt16) : Scalable divider where
  value := Binary32.round (raw.toNat / divider)
  fits := by
    have hd' : (0 : ℚ) < divider := Nat.cast_pos.mpr hd
    have hquot : 0 ≤ (raw.toNat : ℚ) / divider := div_nonneg (Nat.cast_nonneg _) hd'.le
    have hscaled : 0 ≤ Binary32.round (raw.toNat / divider) * divider :=
      mul_nonneg (Binary32.round_nonneg hquot) hd'.le
    have hle : Binary32.round (raw.toNat / divider) * divider ≤ raw.toNat * (1 + 1 / 2 ^ 24) := by
      have herr := (abs_le.mp (Binary32.round_error (raw.toNat / divider))).2
      rw [abs_of_nonneg hquot] at herr
      calc Binary32.round (raw.toNat / divider) * divider
          ≤ (raw.toNat / divider * (1 + 1 / 2 ^ 24)) * divider :=
            mul_le_mul_of_nonneg_right (by linarith) hd'.le
        _ = raw.toNat * (1 + 1 / 2 ^ 24) := by rw [mul_right_comm, div_mul_cancel₀ _ hd'.ne']
    have hraw : (raw.toNat : ℚ) ≤ 65535 := by exact_mod_cast Nat.le_of_lt_succ raw.toNat_lt
    have herr := (abs_le.mp (Binary32.round_error
      (Binary32.round (raw.toNat / divider) * divider))).2
    rw [abs_of_nonneg hscaled] at herr
    exact ⟨neg_one_lt_zero.trans_le (Binary32.round_nonneg hscaled), by linarith⟩

theorem Setpoint.divider_pos (p : Setpoint) : 0 < p.divider := by
  cases p <;> decide

/-- **A setpoint is read back,** up to one count and the rounding, after any calls that leave it. -/
theorem setpoint_kept (p : Setpoint) (x : Scalable p.divider)
    (calls : List (MaimanDriver × DriverCall)) (hleaves : Leaves calls drv p)
    (hset : env.answer w.trace.length
      (.modbusWriteHoldingRegs drv.nodeId p.register x.raw) = 0)
    (hget : readAnswer env drv (runCalls env calls (p.set env drv x w).post) p.register = 0) :
    ∃ v, (p.get env drv (runCalls env calls (p.set env drv x w).post)).val = some v ∧
      v = Binary32.round (x.raw.toNat / p.divider) ∧
      (0 ≤ x.value → x.value * (1 - 1 / 2 ^ 23) - 1 / p.divider ≤ v ∧
        v ≤ x.value * (1 + 1 / 2 ^ 22)) := by
  refine ⟨_, get_val p hget, ?_, ?_⟩
  all_goals rw [runCalls_regs hleaves, set_eq, write_regs_self drv _ _ hset]
  exact reading_near p.divider_pos x

theorem current_kept_after_start :
    ∃ v, (Setpoint.current.get quietEnv ⟨1⟩ (runCalls quietEnv
        [(⟨1⟩, .start), (⟨2⟩, .set .current (.ofCount (by decide) 7)),
          (⟨1⟩, .set .frequency (.ofCount (by decide) 9))]
        (Setpoint.current.set quietEnv ⟨1⟩ (.ofCount (by decide) 5000) World.boot).post)).val =
      some v ∧ 0 ≤ v := by
  obtain ⟨v, hval, hv, -⟩ := @setpoint_kept quietEnv ⟨1⟩ World.boot
    .current (.ofCount (by decide) 5000)
    [(⟨1⟩, .start), (⟨2⟩, .set .current (.ofCount (by decide) 7)),
      (⟨1⟩, .set .frequency (.ofCount (by decide) 9))]
    (by simp [Leaves]) rfl rfl
  refine ⟨v, hval, hv ▸ Binary32.round_nonneg (div_nonneg (Nat.cast_nonneg _) (Nat.cast_nonneg _))⟩

/-! ## Drift -/

/-- One count is lost when `n` is read and written back: the product with the divider has one bit
more than the divider allows, and the reading was rounded down by more than half of it. -/
def LosesCount (divider n : Nat) : Prop :=
  ∃ s, divider * 2 ^ 23 ≤ n * 2 ^ s ∧ n * 2 ^ s ≤ 2 ^ (divider.log2 + 24) ∧
    2 ^ (divider.log2 - 1) < n * 2 ^ s % divider ∧ 2 * (n * 2 ^ s % divider) < divider

/-- The quotient of `n`, scaled to 24 bits before the point. -/
theorem exists_scale {d n : Nat} (hn : 0 < n) (hlt : n < d * 2 ^ 23) :
    ∃ s, d * 2 ^ 23 ≤ n * 2 ^ s ∧ n * 2 ^ s < d * 2 ^ 24 := by
  have hex : ∃ s, d * 2 ^ 23 ≤ n * 2 ^ s :=
    ⟨d * 2 ^ 23, Nat.lt_two_pow_self.le.trans (Nat.le_mul_of_pos_left _ hn)⟩
  refine ⟨Nat.find hex, Nat.find_spec hex, ?_⟩
  rcases hs : Nat.find hex with _ | s
  · omega
  · have hmin := Nat.find_min hex (hs ▸ Nat.lt_succ_self s : s < Nat.find hex)
    rw [pow_succ, ← Nat.mul_assoc]
    omega

/-- The scale is unique. -/
theorem scale_unique {d n s t : Nat} (hlo : d * 2 ^ 23 ≤ n * 2 ^ s) (hhi : n * 2 ^ s < d * 2 ^ 24)
    (hlo' : d * 2 ^ 23 ≤ n * 2 ^ t) (hhi' : n * 2 ^ t < d * 2 ^ 24) : s = t := by
  have hstep {s t : Nat} (hst : s < t) (hlo : d * 2 ^ 23 ≤ n * 2 ^ s) : d * 2 ^ 24 ≤ n * 2 ^ t := by
    have hdouble : d * 2 ^ 24 = d * 2 ^ 23 * 2 := by rw [pow_succ 2 23, Nat.mul_assoc]
    calc d * 2 ^ 24 ≤ n * 2 ^ s * 2 := hdouble ▸ Nat.mul_le_mul_right 2 hlo
      _ = n * 2 ^ (s + 1) := by rw [pow_succ, Nat.mul_assoc]
      _ ≤ n * 2 ^ t := Nat.mul_le_mul_left n (Nat.pow_le_pow_right (by decide) hst)
  rcases lt_trichotomy s t with h | h | h
  · exact absurd (hstep h hlo) (not_le.mpr hhi')
  · exact h
  · exact absurd (hstep h hlo') (not_le.mpr hhi)

/-- Half of a divider is no multiple of eight. -/
theorem Setpoint.no_tie (p : Setpoint) {n s : Nat} (hs : 3 ≤ s) :
    2 * (n * 2 ^ s % p.divider) ≠ p.divider := by
  obtain ⟨t, rfl⟩ := Nat.exists_eq_add_of_le hs
  have height : n * 2 ^ (3 + t) = 8 * (n * 2 ^ t) := by
    rw [pow_add, Nat.mul_left_comm]
    rfl
  rw [height]
  generalize n * 2 ^ t = m
  cases p <;> simp only [Setpoint.divider, dividerCurrent, dividerFrequency, dividerDuration] <;>
    omega

theorem Setpoint.divider_bits (p : Setpoint) : 1 ≤ p.divider.log2 ∧
    2 * 2 ^ (p.divider.log2 - 1) < p.divider ∧ p.divider < 4 * 2 ^ (p.divider.log2 - 1) ∧
      p.divider < 2 ^ 10 := by
  cases p <;> decide

theorem Setpoint.losesCount_iff (p : Setpoint) {n s : Nat} (hlo : p.divider * 2 ^ 23 ≤ n * 2 ^ s)
    (hhi : n * 2 ^ s < p.divider * 2 ^ 24) :
    LosesCount p.divider n ↔ n * 2 ^ s ≤ 2 ^ (p.divider.log2 + 24) ∧
      2 ^ (p.divider.log2 - 1) < n * 2 ^ s % p.divider ∧
        2 * (n * 2 ^ s % p.divider) < p.divider := by
  refine ⟨fun ⟨t, hlo', hp, hloss⟩ => ?_, fun h => ⟨s, hlo, h⟩⟩
  obtain ⟨hlog, hbits, -⟩ := p.divider_bits
  have htop : 2 ^ (p.divider.log2 + 24) < p.divider * 2 ^ 24 := by
    rw [show p.divider.log2 + 24 = p.divider.log2 - 1 + 25 by omega, pow_add]
    omega
  obtain rfl := scale_unique hlo hhi hlo' (hp.trans_lt htop)
  exact ⟨hp, hloss⟩

/-- The count that is written back. -/
theorem ofCount_raw (p : Setpoint) (raw : UInt16) :
    ((Scalable.ofCount p.divider_pos raw).raw.toNat = raw.toNat ∧
        ¬ LosesCount p.divider raw.toNat) ∨
      ((Scalable.ofCount p.divider_pos raw).raw.toNat + 1 = raw.toNat ∧
        LosesCount p.divider raw.toNat) := by
  have hval : (Scalable.ofCount p.divider_pos raw).value =
      Binary32.round (raw.toNat / p.divider) := rfl
  have hnonneg : 0 ≤ (Scalable.ofCount p.divider_pos raw).value :=
    hval ▸ Binary32.round_nonneg (div_nonneg (Nat.cast_nonneg _) (Nat.cast_nonneg _))
  have hraw := (Scalable.ofCount p.divider_pos raw).raw_toNat hnonneg
  rw [hval] at hraw
  generalize (Scalable.ofCount p.divider_pos raw).raw.toNat = m at hraw ⊢
  have hlt : raw.toNat < 65536 := raw.toNat_lt
  generalize raw.toNat = n at *
  rcases Nat.eq_zero_or_pos n with rfl | hn
  · refine .inl ⟨?_, fun ⟨s, hs, _⟩ => ?_⟩
    · simpa [Binary32.round_zero] using hraw
    · have := p.divider_pos
      omega
  obtain ⟨hlog, hbits, hbits', -⟩ := p.divider_bits
  have hd := p.divider_pos
  obtain ⟨s, hlo, hhi⟩ := exists_scale (d := p.divider) hn (by omega)
  have hs : p.divider.log2 - 1 + 8 ≤ s := by
    refine Nat.le_of_lt_succ ((Nat.pow_lt_pow_iff_right (a := 2) (by decide)).mp ?_)
    have hscale : n * 2 ^ s < 2 ^ 16 * 2 ^ s := Nat.mul_lt_mul_of_pos_right hlt (Nat.two_pow_pos s)
    rw [pow_succ 2 s, pow_add]
    omega
  have hback := Binary32.floor_mul_div hn hd hlo hhi hbits.le hbits' (by omega)
    (p.no_tie (by omega))
  rw [show p.divider.log2 - 1 + 25 = p.divider.log2 + 24 by omega] at hback
  rw [hback] at hraw
  rw [p.losesCount_iff hlo hhi]
  split_ifs at hraw with h
  · exact .inr ⟨by omega, h⟩
  · exact .inl ⟨by exact_mod_cast hraw, h⟩

/-- A caller that reads a setpoint and writes it back, if it can be converted. -/
def Setpoint.copy (env : Env) (drv : MaimanDriver) (p : Setpoint) : Prog World Unit := do
  match ← p.get env drv with
  | some v =>
    if h : -1 < Binary32.round (v * p.divider) ∧ Binary32.round (v * p.divider) < 65536 then do
      let _ ← p.set env drv ⟨v, h⟩
  | none => return ()

/-- The driver answers every access to the register of `p`. -/
def Accessible (env : Env) (drv : MaimanDriver) (p : Setpoint) : Prop :=
  ∀ t, env.answer t (.modbusReadHoldingRegs drv.nodeId p.register) = 0 ∧
    ∀ value, env.answer t (.modbusWriteHoldingRegs drv.nodeId p.register value) = 0

theorem copy_regs (p : Setpoint) (h : Accessible env drv p) :
    (p.copy env drv w).post.regs drv.nodeId p.register =
      (Scalable.ofCount p.divider_pos (w.regs drv.nodeId p.register)).raw := by
  have hval : (p.get env drv w).val =
      some (Scalable.ofCount p.divider_pos (w.regs drv.nodeId p.register)).value :=
    get_val p (h w.trace.length).1
  simp only [Setpoint.copy, Prog.bind_run, hval]
  rw [dif_pos (Scalable.ofCount p.divider_pos (w.regs drv.nodeId p.register)).fits, set_eq]
  exact write_regs_self drv _ _ ((h _).2 _)

/-- **Drift.** A setpoint that is read and written back `k` times loses one count each time, until it
has a value that is kept. -/
theorem setpoint_drift (p : Setpoint) (k : Nat) (h : Accessible env drv p) (w : World) :
    let raw := (w.regs drv.nodeId p.register).toNat
    let raw' := (((fun w => (p.copy env drv w).post)^[k] w).regs drv.nodeId p.register).toNat
    raw' ≤ raw ∧ raw ≤ raw' + k ∧ (∀ n, raw' < n → n ≤ raw → LosesCount p.divider n) ∧
      (raw = raw' + k ∨ ¬ LosesCount p.divider raw') := by
  induction k with
  | zero => exact ⟨le_rfl, le_rfl, fun n hlt hle => absurd hlt (not_lt.mpr hle), .inl rfl⟩
  | succ k ih =>
    obtain ⟨hle, hge, hbetween, hend⟩ := ih
    rw [Function.iterate_succ_apply']
    generalize (fun w => (p.copy env drv w).post)^[k] w = w' at *
    simp only [copy_regs p h]
    rcases ofCount_raw p (w'.regs drv.nodeId p.register) with ⟨hself, hkept⟩ | ⟨hless, hlost⟩
    · rw [hself]
      exact ⟨hle, by omega, hbetween, .inr hkept⟩
    · have hrun := hend.resolve_right (not_not_intro hlost)
      refine ⟨by omega, by omega, fun n hlt hn => ?_, .inl (by omega)⟩
      rcases Nat.lt_or_ge (w'.regs drv.nodeId p.register).toNat n with hlt' | hge'
      · exact hbetween n hlt' hn
      · obtain rfl : n = (w'.regs drv.nodeId p.register).toNat := by omega
        exact hlost

/-- 1.18 A drifts to 1.16 A. -/
theorem current_drifts :
    (((fun w => (Setpoint.current.copy quietEnv ⟨1⟩ w).post)^[5]
        (World.boot.apply (.modbusWriteHoldingRegs 1 regCurrent 118))).regs 1 regCurrent).toNat =
      116 := by
  have hiff (n : Nat) (hn : 100 ≤ n) (hn' : n < 200) := Setpoint.current.losesCount_iff
    (n := n) (s := 23) (Nat.mul_le_mul_right _ hn)
    (show n * 2 ^ 23 < 200 * 2 ^ 23 from Nat.mul_lt_mul_of_pos_right hn' (by decide))
  have h118 : LosesCount 100 118 := (hiff 118 (by decide) (by decide)).mpr (by decide)
  have h117 : LosesCount 100 117 := (hiff 117 (by decide) (by decide)).mpr (by decide)
  have h116 : ¬ LosesCount 100 116 := fun h =>
    absurd ((hiff 116 (by decide) (by decide)).mp h) (by decide)
  obtain ⟨hle, -, hbetween, hend⟩ := @setpoint_drift quietEnv ⟨1⟩ .current 5
    (fun _ => ⟨rfl, fun _ => rfl⟩) (World.boot.apply (.modbusWriteHoldingRegs 1 regCurrent 118))
  have hstart : ((World.boot.apply (.modbusWriteHoldingRegs 1 regCurrent 118)).regs 1
      regCurrent).toNat = 118 := by simp [World.apply]
  simp only [Setpoint.register, hstart] at hle hbetween hend
  generalize UInt16.toNat _ = raw at hle hbetween hend ⊢
  have hge : 116 ≤ raw := by
    by_contra hlt
    exact h116 (hbetween 116 (not_le.mp hlt) (by decide))
  rcases hend with hend | hend
  · omega
  · have hne : raw ≠ 117 := fun h => hend (h ▸ h117)
    have hne' : raw ≠ 118 := fun h => hend (h ▸ h118)
    omega

end Tib
