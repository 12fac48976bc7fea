import Mathlib.Algebra.Order.Field.Basic
import Mathlib.Algebra.Order.Floor.Semiring

/-!
# Uniform quantizers

A converter with the codes `0` to `n` over the range `[0, full]`. The level of the code `c` is
`c * full / n`.

* `clamp full v`: the value of the range that is nearest to `v`.
* `quantize full n v`: the code of `v`, truncated. `level_le` and `lt_level_succ`: the value lies
  between the level of its code and the next one.
* `quantize_mono`, `quantize_zero`, `quantize_full`: larger values have no smaller codes, and the
  ends of the range have the first and the last code.
-/

namespace Quantizer

variable {K : Type*} [Field K] [LinearOrder K] {full v v' : K} {n : Nat}

/-- The value of `[0, full]` that is nearest to `v`. -/
def clamp (full v : K) : K := max 0 (min v full)

theorem clamp_nonneg : 0 ≤ clamp full v := le_max_left _ _

theorem clamp_le (h : 0 ≤ full) : clamp full v ≤ full := max_le h (min_le_right _ _)

theorem clamp_mono (h : v ≤ v') : clamp full v ≤ clamp full v' :=
  max_le_max_left 0 (min_le_min_right full h)

theorem clamp_eq_self (h : 0 ≤ v) (h' : v ≤ full) : clamp full v = v := by
  rw [clamp, min_eq_left h', max_eq_right h]

theorem clamp_of_nonpos (h : v ≤ 0) : clamp full v = 0 :=
  max_eq_left ((min_le_left _ _).trans h)

theorem clamp_of_ge (h : 0 ≤ full) (h' : full ≤ v) : clamp full v = full := by
  rw [clamp, min_eq_right h', max_eq_right h]

variable [IsStrictOrderedRing K] [FloorSemiring K]

/-- The code of `v`, truncated. -/
def quantize (full : K) (n : Nat) (v : K) : Nat := ⌊v / full * n⌋₊

theorem quantize_le (hfull : 0 < full) (hv : v ≤ full) : quantize full n v ≤ n := by
  refine Nat.floor_le_of_le ?_
  have hone : v / full ≤ 1 := (div_le_one hfull).mpr hv
  exact mul_le_of_le_one_left n.cast_nonneg hone

theorem level_le (hfull : 0 < full) (hn : 0 < n) (hv : 0 ≤ v) :
    quantize full n v * full / n ≤ v := by
  have hn' : (0 : K) < n := Nat.cast_pos.mpr hn
  have hscaled : 0 ≤ v / full * n := mul_nonneg (div_nonneg hv hfull.le) hn'.le
  have hfloor : (quantize full n v : K) ≤ v / full * n := Nat.floor_le hscaled
  rw [div_le_iff₀ hn']
  calc (quantize full n v : K) * full ≤ v / full * n * full :=
        mul_le_mul_of_nonneg_right hfloor hfull.le
    _ = v * n := by rw [mul_right_comm, div_mul_cancel₀ v hfull.ne']

theorem lt_level_succ (hfull : 0 < full) (hn : 0 < n) :
    v < (quantize full n v + 1) * full / n := by
  have hn' : (0 : K) < n := Nat.cast_pos.mpr hn
  have hfloor : v / full * n < quantize full n v + 1 := Nat.lt_floor_add_one _
  rw [lt_div_iff₀ hn']
  calc v * n = v / full * n * full := by rw [mul_right_comm, div_mul_cancel₀ v hfull.ne']
    _ < (quantize full n v + 1) * full := mul_lt_mul_of_pos_right hfloor hfull

theorem quantize_mono (hfull : 0 < full) (h : v ≤ v') : quantize full n v ≤ quantize full n v' := by
  refine Nat.floor_mono ?_
  exact mul_le_mul_of_nonneg_right (div_le_div_of_nonneg_right h hfull.le) n.cast_nonneg

theorem quantize_zero : quantize full n 0 = 0 := by
  rw [quantize, zero_div, zero_mul, Nat.floor_zero]

theorem quantize_full (hfull : 0 < full) : quantize full n full = n := by
  rw [quantize, div_self hfull.ne', one_mul, Nat.floor_natCast]

end Quantizer
