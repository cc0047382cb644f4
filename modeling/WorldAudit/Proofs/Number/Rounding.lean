import Mathlib.Tactic.Linarith
import Mathlib.Tactic.LinearCombination
import Mathlib.Tactic.Ring
import WorldAudit.Number.Count
/-!
# Rounding — how far a rounded quotient is off

A quotient is rounded to a multiple of a step, and is off by half of it at most (`roundUnits_near`).  Integers of few
bits are exact (`ofNat_single`).  The seventh part of one lies at least a fourteenth away from any half, and it is off by
less, so rounding it does not change the integer nearest to it (`nearestCount_seventh`).
-/
namespace WorldAudit
namespace Number

/-! ## Powers of two -/

theorem twoTo_pos (k : Nat) : 0 < twoTo k := Nat.two_pow_pos k

theorem twoTo_add (a b : Nat) : twoTo (a + b) = twoTo a * twoTo b := Nat.pow_add 2 a b

theorem twoTo_le {a b : Nat} (h : a ≤ b) : twoTo a ≤ twoTo b := Nat.pow_le_pow_right (by decide) h

theorem twoTo_dvd {a b : Nat} (h : a ≤ b) : twoTo a ∣ twoTo b := Nat.pow_dvd_pow 2 h

theorem mul_twoTo_lt {n a : Nat} (h : n < twoTo a) (b : Nat) : n * twoTo b < twoTo (a + b) := by
  rw [twoTo_add]
  exact Nat.mul_lt_mul_of_pos_right h (twoTo_pos b)

/-- Numbers below a power of two lie on a grid that is as many bits finer. -/
theorem log2_step_le {n k p : Nat} (hp : 0 < p) (hk : p ≤ k) (h : n < twoTo k) : Nat.log2 n + 1 - p ≤ k - p := by
  rcases Nat.eq_zero_or_pos n with rfl | hn
  · rw [Nat.log2_zero]
    omega
  · have hlog : Nat.log2 n < k := (Nat.log2_lt (Nat.ne_of_gt hn)).2 h
    omega

/-! ## Quotients -/

theorem roundDiv_near (n : Nat) {d : Nat} (hd : 0 < d) :
    2 * (roundDiv n d * d) ≤ 2 * n + d ∧ 2 * n ≤ 2 * (roundDiv n d * d) + d := by
  have hn : n / d * d + n % d = n := Nat.div_add_mod' n d
  have hr := Nat.mod_lt n hd
  simp only [roundDiv]
  split
  · rw [Nat.add_mul, Nat.one_mul]
    omega
  · omega

theorem roundDiv_mul (n : Nat) {d : Nat} (hd : 0 < d) : roundDiv (n * d) d = n := by
  simp only [roundDiv, Nat.mul_div_cancel _ hd, Nat.mul_mod_left]
  rw [if_neg (by omega)]

namespace Binary

variable {f : Format} (negative : Bool)

/-- **What lies on the grid is exact.** -/
theorem roundUnits_of_dvd {n : Nat} (hdvd : twoTo (Nat.log2 n + 1 - f.precision) ∣ n)
    (hlt : n < twoTo (f.top + f.scale)) : roundUnits f negative n 1 = .finite negative n := by
  obtain ⟨m, hm⟩ := hdvd
  have hround : roundDiv n (twoTo (Nat.log2 n + 1 - f.precision)) = m := by
    conv => lhs; arg 1; rw [hm, Nat.mul_comm]
    exact roundDiv_mul m (twoTo_pos _)
  simp only [roundUnits, Nat.div_one, Nat.mul_one, hround, Nat.mul_comm m, ← hm, if_pos hlt]

/-- **A rounded quotient is off by half a step at most.** -/
theorem roundUnits_near {n d k : Nat} (hd : 0 < d) (hk : Nat.log2 (n / d) + 1 - f.precision ≤ k)
    (hlt : 2 * n + twoTo k * d < 2 * twoTo (f.top + f.scale) * d) :
    ∃ units, roundUnits f negative n d = .finite negative units ∧
      2 * units * d ≤ 2 * n + twoTo k * d ∧ 2 * n ≤ 2 * units * d + twoTo k * d := by
  have hstep := Nat.mul_le_mul_right d (twoTo_le hk)
  generalize hs : twoTo (Nat.log2 (n / d) + 1 - f.precision) = step at hstep
  have hpos : 0 < step := hs ▸ twoTo_pos _
  obtain ⟨hhigh, hlow⟩ := roundDiv_near n (Nat.mul_pos hpos hd)
  have hunits : roundDiv n (step * d) * (step * d) = roundDiv n (step * d) * step * d := (Nat.mul_assoc _ _ _).symm
  rw [hunits] at hhigh hlow
  refine ⟨roundDiv n (step * d) * step, ?_, ?_, ?_⟩
  · have hbelow : roundDiv n (step * d) * step < twoTo (f.top + f.scale) := by
      refine Nat.lt_of_mul_lt_mul_right (a := 2 * d) ?_
      calc roundDiv n (step * d) * step * (2 * d) = 2 * (roundDiv n (step * d) * step * d) := by ring
        _ ≤ 2 * n + twoTo k * d := by omega
        _ < 2 * twoTo (f.top + f.scale) * d := hlt
        _ = twoTo (f.top + f.scale) * (2 * d) := by ring
    simp only [roundUnits, hs, if_pos hbelow]
  · rw [Nat.mul_assoc]
    omega
  · rw [Nat.mul_assoc]
    omega

theorem ofNat_eq (f : Format) (n : Nat) : ofNat f n = roundUnits f false (n * twoTo f.scale) 1 := rfl

theorem div_finite {s t : Bool} {u v : Nat} (hv : v ≠ 0) :
    div (.finite s u) (.finite t v) = roundUnits f (s != t) (u * twoTo f.scale) v := if_neg hv

/-! ## Sevenths -/

/-- **Integers of few bits are exact.** -/
theorem ofNat_single {n : Nat} (h : n < twoTo 24) : ofNat .single n = .finite false (n * twoTo 149) := by
  have hlt : n * twoTo 149 < twoTo (24 + 149) := mul_twoTo_lt h 149
  have htop : twoTo (24 + 149) ≤ twoTo (Format.single.top + Format.single.scale) := twoTo_le (by decide)
  have hgrid : Nat.log2 (n * twoTo 149) + 1 - 24 ≤ 149 := log2_step_le (by decide) (by decide) hlt
  have hdvd : twoTo (Nat.log2 (n * twoTo 149) + 1 - Format.single.precision) ∣ n * twoTo 149 :=
    Dvd.dvd.mul_left (twoTo_dvd hgrid) n
  rw [ofNat_eq]
  exact roundUnits_of_dvd false hdvd (hlt.trans_le htop)

/-- The seventh part of a small integer is off by less than the hundredth part of one. -/
theorem div_seven {n : Nat} (h : n < twoTo 20) :
    ∃ units, div (ofNat .single n) (ofNat .single 7) = .finite false units ∧
      14 * units ≤ 2 * n * twoTo 149 + 7 * twoTo 143 ∧ 2 * n * twoTo 149 ≤ 14 * units + 7 * twoTo 143 := by
  have hunit := twoTo_pos 149
  have hn : n * twoTo 149 < twoTo (2 + 167) := mul_twoTo_lt h 149
  have hbits : n * twoTo 149 * twoTo 149 / (7 * twoTo 149) < twoTo 167 := by
    rw [Nat.mul_div_mul_right _ _ hunit]
    refine Nat.div_lt_of_lt_mul (hn.trans_le ?_)
    rw [twoTo_add]
    exact Nat.mul_le_mul_right _ (by decide)
  have hlt : 2 * (n * twoTo 149 * twoTo 149) + twoTo 143 * (7 * twoTo 149) <
      2 * twoTo (Format.single.top + Format.single.scale) * (7 * twoTo 149) := by
    have hn' : n * twoTo 149 < twoTo (Format.single.top + Format.single.scale) := hn.trans_le (twoTo_le (by decide))
    have hstep : twoTo 143 ≤ twoTo (Format.single.top + Format.single.scale) := twoTo_le (by decide)
    generalize twoTo (Format.single.top + Format.single.scale) = top at hn' hstep
    generalize n * twoTo 149 = m at hn'
    generalize twoTo 143 = step at hstep
    nlinarith
  obtain ⟨units, hunits, hhigh, hlow⟩ := roundUnits_near (f := .single) false
    (Nat.mul_pos (by decide) hunit) (log2_step_le (by decide) (by decide) hbits) hlt
  refine ⟨units, ?_, ?_, ?_⟩
  · rw [ofNat_single (h.trans_le (twoTo_le (by decide))), ofNat_single (by decide), div_finite (by omega)]
    exact hunits
  · refine Nat.le_of_mul_le_mul_right (c := twoTo 149) ?_ hunit
    calc 14 * units * twoTo 149 = 2 * units * (7 * twoTo 149) := by ring
      _ ≤ 2 * (n * twoTo 149 * twoTo 149) + twoTo (167 - 24) * (7 * twoTo 149) := hhigh
      _ = (2 * n * twoTo 149 + 7 * twoTo 143) * twoTo 149 := by ring
  · refine Nat.le_of_mul_le_mul_right (c := twoTo 149) ?_ hunit
    calc 2 * n * twoTo 149 * twoTo 149 = 2 * (n * twoTo 149 * twoTo 149) := by ring
      _ ≤ 2 * units * (7 * twoTo 149) + twoTo (167 - 24) * (7 * twoTo 149) := hlow
      _ = (14 * units + 7 * twoTo 143) * twoTo 149 := by ring

/-- **A seventh to the nearest integer.**  A seventh part is at least a fourteenth away from any half. -/
theorem nearestCount_seventh {n : Nat} (h : n < twoTo 20) :
    (div (ofNat .single n) (ofNat .single 7)).nearestCount = (2 * n + 7) / 14 := by
  obtain ⟨units, hunits, hhigh, hlow⟩ := div_seven h
  have hstep := twoTo_pos 143
  have hunit : twoTo 149 = 64 * twoTo 143 := twoTo_add 6 143
  rw [hunits]
  show min ((2 * units + twoTo 149) / (2 * twoTo 149)) maxCount = _
  rw [hunit] at hhigh hlow ⊢
  generalize twoTo 143 = step at hhigh hlow hstep ⊢
  have hcount : (2 * units + 64 * step) / (2 * (64 * step)) = (2 * n + 7) / 14 := by
    obtain ⟨k, r, hn, hr, hr'⟩ : ∃ k r, 2 * n + 7 = 14 * k + r ∧ 1 ≤ r ∧ r ≤ 13 :=
      ⟨(2 * n + 7) / 14, (2 * n + 7) % 14, by omega, by omega, by omega⟩
    have hk : (2 * n + 7) / 14 = k := by omega
    have hscaled : 2 * (n * step) + 7 * step = 14 * (k * step) + r * step := by
      linear_combination step * hn
    have hleast : step ≤ r * step := Nat.le_mul_of_pos_left step hr
    have hmost : r * step ≤ 13 * step := Nat.mul_le_mul_right step hr'
    have hassoc : 2 * n * (64 * step) = 128 * (n * step) := by ring
    rw [hassoc] at hhigh hlow
    rw [hk]
    refine Nat.div_eq_of_lt_le ?_ ?_
    · calc k * (2 * (64 * step)) = 128 * (k * step) := by ring
        _ ≤ 2 * units + 64 * step := by omega
    · calc 2 * units + 64 * step < 128 * (k * step) + 128 * step := by omega
        _ = (k + 1) * (2 * (64 * step)) := by ring
  rw [hcount, min_eq_left]
  have hsmall : n < 1048576 := h
  unfold maxCount
  omega

end Binary
end Number
end WorldAudit
