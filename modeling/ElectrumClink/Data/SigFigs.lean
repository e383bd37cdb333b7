import ElectrumClink.Data.Rounding
import Mathlib.Algebra.Order.Ring.Int
import Mathlib.Data.Nat.Digits.Lemmas

/-!
# Rounding down to significant figures

A number has at most `s` significant figures in base `b` when it is a number of at most `s` digits
followed by zeros. `roundDown` clears all but the first `s` digits of a number.

`roundsDown_roundDown` says what that is for: the result is the greatest number of at most `s`
figures that is not above the given one.
-/

namespace SigFigs

variable {b s : ℕ} {v : ℤ}

/-- `n` is written in base `b` with at most `s` digits followed by zeros. -/
def HasSigFigs (b s : ℕ) (n : ℤ) : Prop :=
  ∃ (m : ℤ) (k : ℕ), (Nat.digits b m.natAbs).length ≤ s ∧ n = m * b ^ k

/-- The power of the base below which the digits of `v` after the first `s` stand. -/
def factor (b s : ℕ) (v : ℤ) : ℤ := b ^ ((Nat.digits b v.natAbs).length - s)

/-- `v` with its digits after the first `s` cleared. -/
def roundDown (b s : ℕ) (v : ℤ) : ℤ := v / factor b s v * factor b s v

theorem factor_pos (hb : 1 < b) : 0 < factor b s v := by
  apply pow_pos
  exact_mod_cast Nat.zero_lt_of_lt hb

/-- A number that has no more digits is not changed. -/
theorem roundDown_of_length_le (h : (Nat.digits b v.natAbs).length ≤ s) : roundDown b s v = v := by
  rw [roundDown, factor, Nat.sub_eq_zero_of_le h, pow_zero, Int.ediv_one, mul_one]

theorem roundDown_le (hb : 1 < b) : roundDown b s v ≤ v := Int.ediv_mul_le v (factor_pos hb).ne'

/-- A multiple of the factor that is not above `v` is not above the rounded `v`. -/
theorem le_roundDown_of_dvd {n : ℤ} (hb : 1 < b) (hdvd : factor b s v ∣ n) (hle : n ≤ v) :
    n ≤ roundDown b s v := by
  obtain ⟨q, rfl⟩ := hdvd
  rw [mul_comm] at hle ⊢
  have hq : q ≤ v / factor b s v := (Int.le_ediv_iff_mul_le (factor_pos hb)).2 hle
  exact mul_le_mul_of_nonneg_right hq (factor_pos hb).le

/-- The leading digits of the rounded number are the first `s` of `v`. -/
theorem hasSigFigs_roundDown (hb : 1 < b) (hv : 0 < v) : HasSigFigs b s (roundDown b s v) := by
  by_cases hlen : (Nat.digits b v.natAbs).length ≤ s
  · rw [roundDown_of_length_le hlen]
    exact ⟨v, 0, hlen, by rw [pow_zero, mul_one]⟩
  refine ⟨v / factor b s v, (Nat.digits b v.natAbs).length - s, ?_, rfl⟩
  -- `v` has as many digits as `b ^ s` and the factor together have zeros
  have hpow : (b : ℤ) ^ s * factor b s v = (b ^ (Nat.digits b v.natAbs).length : ℕ) := by
    rw [factor, ← pow_add, Nat.add_sub_of_le (by omega), Nat.cast_pow]
  have hlt : v < b ^ s * factor b s v := by
    have hdigits := Nat.lt_base_pow_length_digits (m := v.natAbs) hb
    rw [hpow]
    omega
  have hquot : v / factor b s v < b ^ s := Int.ediv_lt_of_lt_mul (factor_pos hb) hlt
  have hnonneg : 0 ≤ v / factor b s v := Int.ediv_nonneg hv.le (factor_pos hb).le
  rw [Nat.digits_length_le_iff hb]
  zify
  rwa [abs_of_nonneg hnonneg]

/-- A power of the base with as many digits as `v` is reached by `v`. -/
theorem pow_le_of_pos (hb : 1 < b) (hv : 0 < v) :
    (b : ℤ) ^ ((Nat.digits b v.natAbs).length - 1) ≤ v := by
  have hne : Nat.digits b v.natAbs ≠ [] := Nat.digits_ne_nil_iff_ne_zero.2 (by omega)
  have hlt : (Nat.digits b v.natAbs).length - 1 < (Nat.digits b v.natAbs).length :=
    Nat.sub_lt (List.length_pos_of_ne_nil hne) one_pos
  have hle := (Nat.lt_digits_length_iff hb v.natAbs).1 hlt
  zify at hle
  rwa [abs_of_pos hv] at hle

/-- Clearing the digits after the first `s` is rounding down to at most `s` figures. -/
theorem roundsDown_roundDown (hb : 1 < b) (hs : 1 ≤ s) :
    RoundsDown {v : ℤ | 0 < v} {n | HasSigFigs b s n} (roundDown b s) := by
  intro v hv
  have hv : 0 < v := hv
  refine ⟨⟨roundDown_le hb, hasSigFigs_roundDown hb hv⟩, ?_⟩
  rintro n ⟨hle, m, k, hm, rfl⟩
  set digits := (Nat.digits b v.natAbs).length with hdigits
  by_cases hk : digits - s ≤ k
  · -- the zeros reach at least as far as those of the rounded number
    apply le_roundDown_of_dvd hb _ hle
    exact (pow_dvd_pow _ hk).mul_left m
  · -- the number has fewer digits than `v`, so a power of the base stands between them
    have hbase : (0 : ℤ) < b := by omega
    have hmlt : m < b ^ s := by
      have hlt := (Nat.digits_length_le_iff hb m.natAbs).1 hm
      zify at hlt
      exact (le_abs_self m).trans_lt hlt
    calc m * b ^ k
        ≤ b ^ s * b ^ k := mul_le_mul_of_nonneg_right hmlt.le (pow_pos hbase k).le
      _ = b ^ (s + k) := (pow_add _ _ _).symm
      _ ≤ b ^ (digits - 1) := pow_le_pow_right₀ hbase (by omega)
      _ ≤ roundDown b s v := ?_
    apply le_roundDown_of_dvd hb _ (pow_le_of_pos hb hv)
    exact pow_dvd_pow _ (by omega)

/-- A positive number is not rounded down to zero. -/
theorem roundDown_pos (hb : 1 < b) (hs : 1 ≤ s) (hv : 0 < v) : 0 < roundDown b s v := by
  have hone : HasSigFigs b s 1 := by
    refine ⟨1, 0, ?_, by rw [pow_zero, mul_one]⟩
    rw [Int.natAbs_one, Nat.digits_length_le_iff hb]
    exact Nat.one_lt_pow (by omega) hb
  have hle : 1 ≤ roundDown b s v := (roundsDown_roundDown hb hs).le_of_le hv hone hv
  omega

end SigFigs
