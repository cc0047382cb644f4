import WorldAudit.Number.Binary
/-!
# Order — comparison and exact arithmetic

Comparison is transitive, and NaN stands outside it.  Equal numbers that are finite differ by zero exactly, and the
square of that is zero, while the difference of equal infinities is NaN.  So nothing here depends on how a result is
rounded.
-/
namespace WorldAudit
namespace Number
namespace Binary

variable {f : Format} {x y z : Binary f}

def IsFinite : Binary f → Prop
  | .finite _ _ => True
  | .infinite _ | .nan => False

/-! ## Comparison -/

theorem le_nan (x : Binary f) : le x .nan = false := by cases x <;> rfl

theorem le_trans (hxy : le x y = true) (hyz : le y z = true) : le x z = true := by
  cases x with
  | nan => cases hxy
  | infinite s =>
    cases y with
    | nan => cases hxy
    | infinite t => cases z <;> cases s <;> cases t <;> simp_all [le]
    | finite t v => cases z <;> cases s <;> simp_all [le]
  | finite s u =>
    cases y with
    | nan => cases hxy
    | infinite t => cases z <;> cases t <;> simp_all [le]
    | finite t v =>
      cases z with
      | nan => cases hyz
      | infinite r => exact hyz
      | finite r w =>
        simp only [le, decide_eq_true_eq] at hxy hyz ⊢
        omega

theorem isZero_of_le (hzero : le .zero x = true) (hxy : le x y = true) (hy : isZero y = true) : isZero x = true := by
  simp only [isZero, eq, Bool.and_eq_true] at hy ⊢
  exact ⟨le_trans hxy hy.1, hzero⟩

theorem signed_not (s : Bool) (u : Nat) : signed (!s) u = -signed s u := by
  cases s <;> simp [signed]

theorem signed_eq_of_eq {s t : Bool} {u v : Nat} (h : eq (f := f) (.finite s u) (.finite t v) = true) :
    signed s u = signed t v := by
  simp only [eq, le, Bool.and_eq_true, decide_eq_true_eq] at h
  omega

/-! ## Equal numbers -/

/-- **The difference of equal numbers that are finite is zero.** -/
theorem sub_of_eq (h : eq x y = true) (hx : x.IsFinite) : ∃ s, sub x y = .finite s 0 := by
  cases x with
  | nan => cases hx
  | infinite s => cases hx
  | finite s u =>
    cases y with
    | nan => cases h
    | infinite t => cases t <;> cases h
    | finite t v =>
      have hsum : signed s u + signed (!t) v = 0 := by
        rw [signed_not, signed_eq_of_eq h]
        omega
      refine ⟨s && !t, ?_⟩
      show (if signed s u + signed (!t) v = 0 then _ else _) = _
      rw [if_pos hsum]

/-- **The difference of equal infinities is NaN.** -/
theorem sub_of_eq_infinite (h : eq x y = true) (hx : ¬ x.IsFinite) : sub x y = .nan := by
  cases x with
  | nan => cases h
  | finite s u => exact absurd trivial hx
  | infinite s =>
    cases y with
    | nan => cases s <;> cases h
    | finite t v => cases s <;> cases h
    | infinite t => cases s <;> cases t <;> first | rfl | cases h

/-! ## Zero and NaN in arithmetic -/

theorem roundDiv_zero (d : Nat) : roundDiv 0 d = 0 := by
  rcases Nat.eq_zero_or_pos d with rfl | hd
  · rfl
  · simp [roundDiv, Nat.zero_div, Nat.zero_mod]

theorem roundUnits_zero (negative : Bool) (d : Nat) : roundUnits f negative 0 d = .finite negative 0 := by
  simp only [roundUnits, roundDiv_zero, Nat.zero_mul]
  exact if_pos (Nat.two_pow_pos _)

theorem mul_self_zero (s : Bool) : mul (f := f) (.finite s 0) (.finite s 0) = .zero := by
  show roundUnits f (s != s) (0 * 0) _ = _
  rw [Nat.zero_mul, roundUnits_zero, bne_self_eq_false]
  rfl

theorem add_zero_zero : add (f := f) .zero .zero = .zero := rfl

theorem add_nan_left (x : Binary f) : add .nan x = .nan := by cases x <;> rfl

theorem add_nan_right (x : Binary f) : add x .nan = .nan := by cases x <;> rfl

end Binary
end Number
end WorldAudit
