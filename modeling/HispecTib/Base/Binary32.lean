import Mathlib.Data.Int.Log
import Mathlib.Data.Rat.Floor
import Mathlib.Tactic.FieldSimp
import Mathlib.Tactic.Linarith
import Mathlib.Tactic.Positivity
import Mathlib.Tactic.Ring

/-!
# Single precision

Rounding of exact rationals to 24 significant bits, to the nearest and from the middle to the even
one, as binary32 arithmetic rounds the result of every operation. The exponent is not bounded, so
this is the arithmetic of values that neither overflow nor come close to zero.

* `roundEven`, `roundQuot`: rounding to an integer, of a rational and of a quotient of numbers.
* `round`: rounding to 24 bits. `round_of_binade` reduces it to `roundEven`, `round_scaled` to
  `roundQuot`.
* `round_error`: the relative error is at most 1 in 16777216.
-/

namespace Binary32

/-! ## To an integer -/

def roundEven (x : ℚ) : ℤ :=
  if x - ⌊x⌋ < 1 / 2 then ⌊x⌋
  else if 1 / 2 < x - ⌊x⌋ then ⌊x⌋ + 1
  else if ⌊x⌋ % 2 = 0 then ⌊x⌋ else ⌊x⌋ + 1

/-- `n / d`, rounded. -/
def roundQuot (n d : ℕ) : ℕ :=
  if 2 * (n % d) < d then n / d
  else if d < 2 * (n % d) then n / d + 1
  else if n / d % 2 = 0 then n / d else n / d + 1

theorem roundEven_div (n : ℕ) {d : ℕ} (hd : 0 < d) :
    roundEven ((n : ℚ) / d) = roundQuot n d := by
  have hd' : (0 : ℚ) < d := Nat.cast_pos.mpr hd
  have hfloor : ⌊(n : ℚ) / d⌋ = (n / d : ℕ) := by
    rw [Rat.floor_natCast_div_natCast]
    rfl
  have hsplit : ((n % d : ℕ) : ℚ) = n - d * (n / d : ℕ) := by
    have h := Nat.div_add_mod n d
    have h' : (d : ℚ) * (n / d : ℕ) + (n % d : ℕ) = n := by exact_mod_cast h
    linarith
  have hfract : (n : ℚ) / d - ((n / d : ℕ) : ℤ) = (n % d : ℕ) / d := by
    rw [hsplit, sub_div, mul_div_cancel_left₀ _ hd'.ne', Int.cast_natCast]
  have hlt : ((n % d : ℕ) : ℚ) / d < 1 / 2 ↔ 2 * (n % d) < d := by
    rw [div_lt_div_iff₀ hd' two_pos, one_mul, mul_comm]
    exact_mod_cast Iff.rfl
  have hgt : 1 / 2 < ((n % d : ℕ) : ℚ) / d ↔ d < 2 * (n % d) := by
    rw [div_lt_div_iff₀ two_pos hd', one_mul, mul_comm]
    exact_mod_cast Iff.rfl
  simp only [roundEven, roundQuot, hfloor, hfract, hlt, hgt]
  split_ifs <;> first | rfl | omega

/-- The rounded number is at most one half away. -/
theorem roundEven_error (x : ℚ) : |(roundEven x : ℚ) - x| ≤ 1 / 2 := by
  have hle := Int.floor_le x
  have hlt := Int.lt_floor_add_one x
  rw [abs_le, roundEven]
  split_ifs <;> push_cast <;> constructor <;> linarith

/-! ## To 24 bits -/

/-- The exponent of the last bit of `x`. -/
def lastExp (x : ℚ) : ℤ := Int.log 2 x - 23

def roundPos (x : ℚ) : ℚ := roundEven (x / 2 ^ lastExp x) * 2 ^ lastExp x

def round (x : ℚ) : ℚ := if x < 0 then -roundPos (-x) else roundPos x

theorem round_neg (x : ℚ) : round (-x) = -round x := by
  rcases lt_trichotomy x 0 with hx | rfl | hx
  · rw [round, round, if_pos hx, if_neg (by linarith), neg_neg]
  · simp [round, roundPos, roundEven]
  · rw [round, round, if_pos (by linarith), if_neg (by linarith), neg_neg]

theorem round_zero : round 0 = 0 := by
  simp [round, roundPos, roundEven]

theorem round_of_nonneg {x : ℚ} (hx : 0 ≤ x) : round x = roundPos x := if_neg (not_lt.mpr hx)

/-- Between `2 ^ (e + 23)` and `2 ^ (e + 24)`, a multiple of `2 ^ e`. -/
theorem round_of_binade {x : ℚ} {e : ℤ} (hlo : 2 ^ (e + 23) ≤ x) (hhi : x < 2 ^ (e + 24)) :
    round x = roundEven (x / 2 ^ e) * 2 ^ e := by
  have hpos : 0 < x := lt_of_lt_of_le (zpow_pos two_pos _) hlo
  have hlog : Int.log 2 x = e + 23 := by
    refine le_antisymm ?_ ((Int.zpow_le_iff_le_log one_lt_two hpos).mp (by exact_mod_cast hlo))
    have hlt := (Int.lt_zpow_iff_log_lt one_lt_two hpos).mp (by exact_mod_cast hhi)
    omega
  have hexp : lastExp x = e := by rw [lastExp, hlog]; omega
  rw [round_of_nonneg hpos.le, roundPos, hexp]

/-- The relative error. -/
theorem round_error (x : ℚ) : |round x - x| ≤ |x| / 2 ^ 24 := by
  have hpos {x : ℚ} (hx : 0 < x) : |round x - x| ≤ x / 2 ^ 24 := by
    have hu : (0 : ℚ) < 2 ^ lastExp x := zpow_pos two_pos _
    have hlow : (2 : ℚ) ^ lastExp x * 2 ^ 23 ≤ x := by
      have h := Int.zpow_log_le_self one_lt_two hx
      have hsum : (2 : ℚ) ^ (lastExp x + 23) = 2 ^ lastExp x * 2 ^ 23 := by
        rw [zpow_add₀ two_ne_zero]
        norm_num
      rw [← hsum, lastExp, sub_add_cancel]
      exact_mod_cast h
    have herr := roundEven_error (x / 2 ^ lastExp x)
    have hfactor : round x - x =
        (roundEven (x / 2 ^ lastExp x) - x / 2 ^ lastExp x) * 2 ^ lastExp x := by
      rw [round_of_nonneg hx.le, roundPos, sub_mul, div_mul_cancel₀ _ hu.ne']
    rw [hfactor, abs_mul, abs_of_pos hu, le_div_iff₀ (by positivity)]
    calc |(roundEven (x / 2 ^ lastExp x) : ℚ) - x / 2 ^ lastExp x| * 2 ^ lastExp x * 2 ^ 24
        ≤ 1 / 2 * 2 ^ lastExp x * 2 ^ 24 := by gcongr
      _ = 2 ^ lastExp x * 2 ^ 23 := by ring
      _ ≤ x := hlow
  rcases lt_trichotomy x 0 with hx | rfl | hx
  · have h := hpos (neg_pos.mpr hx)
    rwa [round_neg, ← neg_add', abs_neg, ← sub_eq_add_neg, ← abs_of_neg hx] at h
  · simp [round_zero]
  · rw [abs_of_pos hx]
    exact hpos hx

theorem round_nonneg {x : ℚ} (hx : 0 ≤ x) : 0 ≤ round x := by
  have herr := (abs_le.mp (round_error x)).1
  rw [abs_of_nonneg hx] at herr
  linarith

/-! ## Scaled numbers -/

section Scaled

variable {n d a s t : ℕ}

theorem two_zpow_sub (t s : ℕ) : (2 : ℚ) ^ ((t : ℤ) - s) = 2 ^ t / 2 ^ s := by
  rw [zpow_sub₀ two_ne_zero, zpow_natCast, zpow_natCast]

/-- A quotient that has 24 bits before the point when it is scaled by `2 ^ s`. -/
theorem round_div (hd : 0 < d) (hlo : d * 2 ^ 23 ≤ n * 2 ^ s) (hhi : n * 2 ^ s < d * 2 ^ 24) :
    round ((n : ℚ) / d) = roundQuot (n * 2 ^ s) d / 2 ^ s := by
  have hd' : (0 : ℚ) < d := Nat.cast_pos.mpr hd
  have hs : (0 : ℚ) < 2 ^ s := pow_pos two_pos s
  have hbound (k : ℕ) : (2 : ℚ) ^ (-(s : ℤ) + k) = 2 ^ k / 2 ^ s := by
    rw [add_comm, ← sub_eq_add_neg, two_zpow_sub]
  have hlo' : (d : ℚ) * 2 ^ 23 ≤ n * 2 ^ s := by exact_mod_cast hlo
  have hhi' : (n : ℚ) * 2 ^ s < d * 2 ^ 24 := by exact_mod_cast hhi
  have hround : round ((n : ℚ) / d) = roundEven (n / d / 2 ^ (-(s : ℤ))) * 2 ^ (-(s : ℤ)) := by
    refine round_of_binade ?_ ?_
    · rw [show (23 : ℤ) = (23 : ℕ) from rfl, hbound, div_le_div_iff₀ hs hd']
      linarith
    · rw [show (24 : ℤ) = (24 : ℕ) from rfl, hbound, div_lt_div_iff₀ hd' hs]
      linarith
  have hscaled : (n : ℚ) / d / 2 ^ (-(s : ℤ)) = (n * 2 ^ s : ℕ) / d := by
    rw [zpow_neg, zpow_natCast, div_inv_eq_mul, div_mul_eq_mul_div]
    push_cast
    rfl
  rw [hround, hscaled, roundEven_div _ hd, zpow_neg, zpow_natCast, Int.cast_natCast, div_eq_mul_inv]

/-- The scaled number `a`, which has `t + 1` bits. -/
theorem round_scaled (ht : 23 ≤ t) (hlo : 2 ^ t ≤ a) (hhi : a < 2 ^ (t + 1)) (s : ℕ) :
    round ((a : ℚ) / 2 ^ s) = (roundQuot a (2 ^ (t - 23)) * 2 ^ (t - 23) : ℕ) / 2 ^ s := by
  obtain ⟨u, rfl⟩ := Nat.exists_eq_add_of_le' ht
  rw [Nat.add_sub_cancel]
  have hs : (0 : ℚ) < 2 ^ s := pow_pos two_pos s
  have hu : (0 : ℚ) < 2 ^ u := pow_pos two_pos u
  have hlo' : (2 : ℚ) ^ (u + 23) ≤ a := by exact_mod_cast hlo
  have hhi' : (a : ℚ) < 2 ^ (u + 24) := by exact_mod_cast hhi
  have hbound (k : ℕ) : (2 : ℚ) ^ ((u : ℤ) - s + k) = 2 ^ (u + k) / 2 ^ s := by
    rw [sub_add_eq_add_sub, ← two_zpow_sub]
    push_cast
    rfl
  have hround : round ((a : ℚ) / 2 ^ s) =
      roundEven (a / 2 ^ s / 2 ^ ((u : ℤ) - s)) * 2 ^ ((u : ℤ) - s) := by
    refine round_of_binade ?_ ?_
    · rw [show (23 : ℤ) = (23 : ℕ) from rfl, hbound]
      gcongr
    · rw [show (24 : ℤ) = (24 : ℕ) from rfl, hbound]
      gcongr
  have hscaled : (a : ℚ) / 2 ^ s / 2 ^ ((u : ℤ) - s) = a / (2 ^ u : ℕ) := by
    rw [two_zpow_sub, div_div_div_cancel_right₀ hs.ne']
    push_cast
    rfl
  rw [hround, hscaled, roundEven_div _ (Nat.two_pow_pos u), two_zpow_sub, Int.cast_natCast,
    mul_div_assoc']
  push_cast
  rfl

end Scaled

/-! ## Quotients next to a number -/

section Near

variable {m u x n d : ℕ}

theorem roundQuot_eq_of_mod (hx : x < u) :
    roundQuot (m * u + x) u = if 2 * x < u then m else if u < 2 * x then m + 1
      else if m % 2 = 0 then m else m + 1 := by
  have hdiv : (m * u + x) / u = m := by
    rw [Nat.mul_comm, Nat.mul_add_div (by omega), Nat.div_eq_of_lt hx, Nat.add_zero]
  have hmod : (m * u + x) % u = x := by
    rw [Nat.mul_comm, Nat.mul_add_mod, Nat.mod_eq_of_lt hx]
  rw [roundQuot, hdiv, hmod]

theorem roundQuot_above (hm : m % 2 = 0) (hx : x < u) :
    roundQuot (m * u + x) u = if 2 * x ≤ u then m else m + 1 := by
  rw [roundQuot_eq_of_mod hx]
  split_ifs <;> omega

theorem roundQuot_below (hm : m % 2 = 0) (hm' : 0 < m) (hx : x < u) :
    roundQuot (m * u - x) u = if 2 * x ≤ u then m else m - 1 := by
  rcases Nat.eq_zero_or_pos x with rfl | hpos
  · rw [Nat.sub_zero, ← Nat.add_zero (m * u), roundQuot_above hm hx]
    simp
  · obtain ⟨m, rfl⟩ := Nat.exists_eq_succ_of_ne_zero hm'.ne'
    have hsplit : m.succ * u - x = m * u + (u - x) := by
      rw [Nat.succ_mul]
      omega
    rw [hsplit, roundQuot_eq_of_mod (by omega)]
    split_ifs <;> omega

/-- The multiple of `d` that the rounded quotient stands for, without ties. -/
theorem roundQuot_mul (hd : 0 < d) (htie : 2 * (n % d) ≠ d) :
    roundQuot n d * d = if 2 * (n % d) < d then n - n % d else n + (d - n % d) := by
  have hle : n % d ≤ n := Nat.mod_le n d
  have hlt : n % d < d := Nat.mod_lt n hd
  have hmul : n / d * d = n - n % d := by
    rw [Nat.mul_comm]
    exact Nat.eq_sub_of_add_eq (Nat.div_add_mod n d)
  rw [roundQuot]
  generalize n % d = r at *
  split_ifs with h h'
  · exact hmul
  · rw [Nat.add_mul, hmul, Nat.one_mul]
    omega
  · omega
  · omega

end Near

/-! ## A quotient multiplied back -/

section Back

variable {n d s b : ℕ}

/-- The whole part of a scaled number next to `n`. -/
theorem floor_scaled_near {u : ℕ} (hu : 0 < u) (hus : u < 2 ^ s) (hn : 0 < n) :
    ⌊((n * 2 ^ s : ℕ) : ℚ) / 2 ^ s⌋ = (n : ℤ) ∧
      ⌊((n * 2 ^ s + u : ℕ) : ℚ) / 2 ^ s⌋ = (n : ℤ) ∧
      ⌊((n * 2 ^ s - u : ℕ) : ℚ) / 2 ^ s⌋ = ((n - 1 : ℕ) : ℤ) := by
  have hs : 0 < 2 ^ s := Nat.two_pow_pos s
  have hfloor (m : ℕ) : ⌊(m : ℚ) / 2 ^ s⌋ = ((m / 2 ^ s : ℕ) : ℤ) := by
    have h := Rat.floor_natCast_div_natCast m (2 ^ s)
    push_cast at h ⊢
    exact h
  refine ⟨?_, ?_, ?_⟩ <;> rw [hfloor, Int.ofNat_inj]
  · exact Nat.mul_div_cancel n hs
  · rw [Nat.mul_comm, Nat.mul_add_div hs, Nat.div_eq_of_lt hus, Nat.add_zero]
  · obtain ⟨m, rfl⟩ := Nat.exists_eq_succ_of_ne_zero hn.ne'
    have hsplit : m.succ * 2 ^ s - u = 2 ^ s * m + (2 ^ s - u) := by
      rw [Nat.succ_mul, Nat.mul_comm]
      omega
    rw [hsplit, Nat.mul_add_div hs, Nat.div_eq_of_lt (by omega), Nat.add_zero, Nat.succ_sub_one]

/-- A number of `t + 1` bits right below `n`. -/
theorem floor_round_below {t m x : ℕ} (ht : 23 ≤ t) (hm : m % 2 = 0)
    (hmu : m * 2 ^ (t - 23) = n * 2 ^ s) (hus : 2 ^ (t - 23) < 2 ^ s) (hn : 0 < n)
    (hx : x < 2 ^ (t - 23)) (hlo : 2 ^ t ≤ n * 2 ^ s - x) (hhi : n * 2 ^ s - x < 2 ^ (t + 1)) :
    ⌊round (((n * 2 ^ s - x : ℕ) : ℚ) / 2 ^ s)⌋ =
      if 2 * x ≤ 2 ^ (t - 23) then (n : ℤ) else ((n - 1 : ℕ) : ℤ) := by
  have hu : 0 < 2 ^ (t - 23) := Nat.two_pow_pos _
  have hm' : 0 < m := by
    refine Nat.pos_of_ne_zero fun h => ?_
    rw [h, Nat.zero_mul] at hmu
    exact absurd hmu.symm (Nat.mul_pos hn (Nat.two_pow_pos s)).ne'
  obtain ⟨hself, -, hbelow⟩ := floor_scaled_near hu hus hn
  rw [round_scaled ht hlo hhi, ← hmu, roundQuot_below hm hm' hx]
  split_ifs with h
  · rw [hmu, hself]
  · rw [Nat.sub_mul, hmu, Nat.one_mul, hbelow]

/-- A number of `t + 1` bits right above `n`. -/
theorem floor_round_above {t m x : ℕ} (ht : 23 ≤ t) (hm : m % 2 = 0)
    (hmu : m * 2 ^ (t - 23) = n * 2 ^ s) (hus : 2 ^ (t - 23) < 2 ^ s) (hn : 0 < n)
    (hx : x < 2 ^ (t - 23)) (hlo : 2 ^ t ≤ n * 2 ^ s + x) (hhi : n * 2 ^ s + x < 2 ^ (t + 1)) :
    ⌊round (((n * 2 ^ s + x : ℕ) : ℚ) / 2 ^ s)⌋ = (n : ℤ) := by
  obtain ⟨hself, habove, -⟩ := floor_scaled_near (Nat.two_pow_pos _) hus hn
  rw [round_scaled ht hlo hhi, ← hmu, roundQuot_above hm hx]
  split_ifs with h
  · rw [hmu, hself]
  · rw [Nat.add_mul, hmu, Nat.one_mul, habove]

/-- The multiples of `d` next to `n` are quotients of 24 bits. -/
theorem rounded_bounds (hd : 0 < d) {p : ℕ} (hlo : d * 2 ^ 23 ≤ p) (hhi : p < d * 2 ^ 24) :
    d * 2 ^ 23 ≤ p - p % d ∧ p + (d - p % d) ≤ d * 2 ^ 24 := by
  have hmod : p % d < d := Nat.mod_lt p hd
  have hdiv : p - p % d = d * (p / d) := (Nat.eq_sub_of_add_eq (Nat.div_add_mod p d)).symm
  have hlo' : 2 ^ 23 ≤ p / d := (Nat.le_div_iff_mul_le hd).mpr (by rwa [Nat.mul_comm])
  have hhi' : p / d + 1 ≤ 2 ^ 24 := (Nat.div_lt_iff_lt_mul hd).mpr (by rwa [Nat.mul_comm])
  refine ⟨hdiv ▸ Nat.mul_le_mul_left d hlo', ?_⟩
  calc p + (d - p % d) = d * (p / d + 1) := by
        rw [Nat.mul_add, ← hdiv, Nat.mul_one]
        have hle : p % d ≤ p := Nat.mod_le p d
        omega
    _ ≤ d * 2 ^ 24 := Nat.mul_le_mul_left d hhi'

/-- Between a power of two and a larger multiple of `2 ^ s` lie `2 ^ s` numbers. -/
theorem pow_add_le_of_lt {e : ℕ} (hse : s ≤ e) (h : 2 ^ e < n * 2 ^ s) :
    2 ^ e + 2 ^ s ≤ n * 2 ^ s := by
  obtain ⟨j, rfl⟩ := Nat.exists_eq_add_of_le hse
  rw [pow_add, Nat.mul_comm] at h ⊢
  have hlt : 2 ^ j + 1 ≤ n := Nat.lt_of_mul_lt_mul_right h
  calc 2 ^ j * 2 ^ s + 2 ^ s = (2 ^ j + 1) * 2 ^ s := by rw [Nat.add_mul, Nat.one_mul]
    _ ≤ n * 2 ^ s := Nat.mul_le_mul_right _ hlt

/-- **A quotient multiplied back.** For a divisor with `b - 23` bits, scaled so that the quotient has
24 bits before the point, and without ties: the whole part of the product is `n`, or `n - 1` when
the quotient was rounded down by more than half of the last place of `n`. -/
theorem floor_mul_div (hn : 0 < n) (hd : 0 < d) (hlo : d * 2 ^ 23 ≤ n * 2 ^ s)
    (hhi : n * 2 ^ s < d * 2 ^ 24) {c : ℕ} (hbits : 2 * 2 ^ c ≤ d) (hbits' : d < 4 * 2 ^ c)
    (hs : c + 3 ≤ s) (htie : 2 * (n * 2 ^ s % d) ≠ d) :
    ⌊round (round ((n : ℚ) / d) * d)⌋ =
      if n * 2 ^ s ≤ 2 ^ (c + 25) ∧ 2 ^ c < n * 2 ^ s % d ∧ 2 * (n * 2 ^ s % d) < d then
        ((n - 1 : ℕ) : ℤ)
      else (n : ℤ) := by
  have hmod : n * 2 ^ s % d < d := Nat.mod_lt _ hd
  have hprod : round ((n : ℚ) / d) * d = ((roundQuot (n * 2 ^ s) d * d : ℕ) : ℚ) / 2 ^ s := by
    rw [round_div hd hlo hhi]
    push_cast
    ring
  rw [hprod, roundQuot_mul hd htie]
  obtain ⟨hlo', hhi'⟩ := rounded_bounds hd hlo hhi
  have hscale (k : ℕ) : 2 ^ (c + k) = 2 ^ k * 2 ^ c := by rw [pow_add, Nat.mul_comm]
  have hse : s ≤ c + 25 := by
    refine Nat.le_of_lt_succ ((Nat.pow_lt_pow_iff_right (a := 2) (by decide)).mp ?_)
    have hone : 2 ^ s ≤ n * 2 ^ s := Nat.le_mul_of_pos_left _ hn
    have := hscale 26
    simp only [Nat.succ_eq_add_one, Nat.add_assoc, Nat.reduceAdd]
    omega
  have hds : 8 * 2 ^ c ≤ 2 ^ s := (hscale 3) ▸ Nat.pow_le_pow_right (by decide) hs
  have hgap := pow_add_le_of_lt (n := n) hse
  have h24 := hscale 24
  have h25 := hscale 25
  have h26 := hscale 26
  -- The last place of the product is `2 * 2 ^ c` or, from `2 ^ (c + 25)` on, twice as much.
  have hlast : 2 ^ (c + 24 - 23) = 2 * 2 ^ c := by
    rw [Nat.add_sub_assoc (by decide)]
    exact hscale 1
  have hlast' : 2 ^ (c + 25 - 23) = 4 * 2 ^ c := by
    rw [Nat.add_sub_assoc (by decide)]
    exact hscale 2
  obtain ⟨j, hj⟩ : ∃ j, 2 ^ s = 8 * 2 ^ c * j := by
    refine ⟨2 ^ (s - (c + 3)), ?_⟩
    rw [show 8 = 2 ^ 3 from rfl, ← hscale, ← pow_add, Nat.add_sub_cancel' hs]
  have hlow : n * (4 * j) * 2 ^ (c + 24 - 23) = n * 2 ^ s := by rw [hlast, hj]; ring
  have hhigh : n * (2 * j) * 2 ^ (c + 25 - 23) = n * 2 ^ s := by rw [hlast', hj]; ring
  have heven (m : ℕ) : n * (2 * m) % 2 = 0 := by
    rw [Nat.mul_left_comm]
    exact Nat.mul_mod_right 2 _
  have heven4 : n * (4 * j) % 2 = 0 := by
    rw [show 4 * j = 2 * (2 * j) by ring]
    exact heven _
  have hc : 0 < 2 ^ c := Nat.two_pow_pos c
  generalize n * 2 ^ s % d = r at *
  by_cases hdown : 2 * r < d
  · rw [if_pos hdown]
    by_cases hbin : n * 2 ^ s - r < 2 ^ (c + 25)
    · rw [floor_round_below (by omega) heven4 hlow (by omega) hn (by omega) (by omega) hbin, hlast]
      by_cases hr : r ≤ 2 ^ c
      · rw [if_pos (by omega), if_neg (by omega)]
      · have hp : n * 2 ^ s ≤ 2 ^ (c + 25) := by
          by_contra h
          have := hgap (by omega)
          omega
        rw [if_neg (by omega), if_pos ⟨hp, by omega, hdown⟩]
    · rw [floor_round_below (by omega) (heven j) hhigh (by omega) hn (by omega) (by omega)
        (by omega), hlast', if_pos (by omega), if_neg (by omega)]
  · rw [if_neg hdown, if_neg (by omega)]
    by_cases hbin : n * 2 ^ s + (d - r) < 2 ^ (c + 25)
    · exact floor_round_above (by omega) heven4 hlow (by omega) hn (by omega) (by omega) hbin
    · exact floor_round_above (by omega) (heven j) hhigh (by omega) hn (by omega) (by omega)
        (by omega)

end Back

end Binary32
