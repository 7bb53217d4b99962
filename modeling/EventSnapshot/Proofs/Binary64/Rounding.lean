import EventSnapshot.Binary64
import Mathlib.Tactic.Linarith
import Mathlib.Tactic.Ring

/-!
# Rounding to floating-point numbers

Rounding keeps the order: a greater fraction has no smaller bit pattern. So whether a rounded result
is finite follows from one greater result that is. The products and quotients that stand for a
written number are bounded in this way.
-/

namespace EventSnapshot.Binary64

/-! ## Rounding to whole numbers -/

/-- A quotient is rounded to at most `k` if it is less than half a step above, or just half and `k`
is even. -/
theorem roundHalfEven_le_iff {numerator denominator k : Nat} (h : 0 < denominator) :
    roundHalfEven numerator denominator ≤ k ↔
      2 * numerator < (2 * k + 1) * denominator ∨
        2 * numerator = (2 * k + 1) * denominator ∧ k % 2 = 0 := by
  have hsplit := Nat.div_add_mod numerator denominator
  have hrest := Nat.mod_lt numerator h
  have hstep : (2 * k + 1) * denominator = 2 * (denominator * k) + denominator := by ring
  unfold roundHalfEven
  dsimp only
  generalize numerator / denominator = q at *
  generalize numerator % denominator = r at *
  rw [hstep, ← hsplit]
  rcases Nat.lt_trichotomy q k with hlt | rfl | hgt
  · have hwhole : denominator * q + denominator ≤ denominator * k := by nlinarith
    split
    · omega
    · split <;> omega
  · split
    · omega
    · split <;> omega
  · have hwhole : denominator * k + denominator ≤ denominator * q := by nlinarith
    split
    · omega
    · split <;> omega

/-- A greater fraction is not rounded to a smaller number. -/
theorem roundHalfEven_mono {n d n' d' : Nat} (hd : 0 < d) (hd' : 0 < d') (h : n * d' ≤ n' * d) :
    roundHalfEven n d ≤ roundHalfEven n' d' := by
  have hbound := (roundHalfEven_le_iff hd').mp (Nat.le_refl (roundHalfEven n' d'))
  rw [roundHalfEven_le_iff hd]
  generalize roundHalfEven n' d' = k at *
  have hscaled : 2 * n * d' ≤ 2 * n' * d := by nlinarith
  rcases hbound with hlt | ⟨heq, heven⟩
  · left
    apply Nat.lt_of_mul_lt_mul_right (a := d')
    calc 2 * n * d' ≤ 2 * n' * d := hscaled
      _ < (2 * k + 1) * d' * d := Nat.mul_lt_mul_of_pos_right hlt hd
      _ = (2 * k + 1) * d * d' := by ring
  · have hle : 2 * n ≤ (2 * k + 1) * d := by
      apply Nat.le_of_mul_le_mul_right _ hd'
      calc 2 * n * d' ≤ 2 * n' * d := hscaled
        _ = (2 * k + 1) * d * d' := by rw [heq]; ring
    rcases Nat.lt_or_eq_of_le hle with hlt | heq
    · exact .inl hlt
    · exact .inr ⟨heq, heven⟩

/-- A quotient is rounded to one of its two neighbours. -/
theorem roundHalfEven_bounds (numerator denominator : Nat) :
    numerator / denominator ≤ roundHalfEven numerator denominator ∧
      roundHalfEven numerator denominator ≤ numerator / denominator + 1 := by
  unfold roundHalfEven
  dsimp only
  split
  · omega
  · split <;> omega

/-! ## Rounding to bit patterns -/

/-- The exponent that a quotient is rounded with. -/
def roundingExponent (numerator denominator : Nat) : Nat :=
  Nat.log2 ((numerator <<< 1074) / denominator) - 52

/-- The bit pattern that a quotient is rounded to, be it finite or not. -/
def roundedPattern (numerator denominator : Nat) : Nat :=
  roundingExponent numerator denominator * binade +
    roundHalfEven (numerator <<< 1074)
      (denominator <<< roundingExponent numerator denominator)

/-- A quotient is rounded to its bit pattern, if that is finite. -/
theorem nearest?_eq (numerator denominator : Nat) :
    nearest? numerator denominator =
      if h : roundedPattern numerator denominator < binary64Limit then
        some ⟨roundedPattern numerator denominator, h⟩
      else none := rfl

/-- The exponent leaves a significand of at most 53 bits, and of 53 bits unless it is the least. -/
theorem roundingExponent_bounds {n d : Nat} (hd : 0 < d) :
    n <<< 1074 < (d <<< roundingExponent n d) * 2 ^ 53 ∧
      (0 < roundingExponent n d → (d <<< roundingExponent n d) * 2 ^ 52 ≤ n <<< 1074) := by
  have hlog : roundingExponent n d = Nat.log2 ((n <<< 1074) / d) - 52 := rfl
  generalize hq : (n <<< 1074) / d = q at hlog
  rw [Nat.shiftLeft_eq d]
  constructor
  · have hlt : q < 2 ^ (roundingExponent n d + 53) :=
      calc q < 2 ^ (q.log2 + 1) := Nat.lt_log2_self
        _ ≤ 2 ^ (roundingExponent n d + 53) := Nat.pow_le_pow_right (by decide) (by omega)
    rw [← hq, Nat.div_lt_iff_lt_mul hd] at hlt
    calc n <<< 1074 < 2 ^ (roundingExponent n d + 53) * d := hlt
      _ = d * 2 ^ roundingExponent n d * 2 ^ 53 := by rw [Nat.pow_add]; ring
  · intro hpos
    have hne : q ≠ 0 := by
      rintro rfl
      simp at hlog
      omega
    have hle : 2 ^ (roundingExponent n d + 52) ≤ q := by
      rw [← Nat.le_log2 hne]
      omega
    rw [← hq, Nat.le_div_iff_mul_le hd] at hle
    calc d * 2 ^ roundingExponent n d * 2 ^ 52 = 2 ^ (roundingExponent n d + 52) * d := by
          rw [Nat.pow_add]; ring
      _ ≤ n <<< 1074 := hle

/-- A greater fraction is not rounded to a smaller bit pattern. -/
theorem roundedPattern_mono {n d n' d' : Nat} (hd : 0 < d) (hd' : 0 < d') (h : n * d' ≤ n' * d) :
    roundedPattern n d ≤ roundedPattern n' d' := by
  obtain ⟨hupper, hlower⟩ := roundingExponent_bounds (n := n) hd
  obtain ⟨hupper', hlower'⟩ := roundingExponent_bounds (n := n') hd'
  have hbinade : binade = 2 ^ 52 := by decide
  have hshifted : (n <<< 1074) * d' ≤ (n' <<< 1074) * d := by
    rw [Nat.shiftLeft_eq, Nat.shiftLeft_eq, Nat.mul_right_comm, Nat.mul_right_comm n']
    exact Nat.mul_le_mul_right _ h
  unfold roundedPattern
  generalize roundingExponent n d = e at *
  generalize roundingExponent n' d' = e' at *
  generalize n <<< 1074 = N at *
  generalize n' <<< 1074 = N' at *
  rw [Nat.shiftLeft_eq, Nat.shiftLeft_eq] at *
  have hpos : 0 < d * 2 ^ e := Nat.mul_pos hd (Nat.two_pow_pos e)
  have hpos' : 0 < d' * 2 ^ e' := Nat.mul_pos hd' (Nat.two_pow_pos e')
  rcases Nat.lt_trichotomy e e' with hlt | rfl | hgt
  · -- The next exponent starts where this one ends.
    have hsmall : roundHalfEven N (d * 2 ^ e) ≤ 2 ^ 53 := by
      rw [roundHalfEven_le_iff hpos]
      left
      nlinarith
    have hgreat : 2 ^ 52 ≤ roundHalfEven N' (d' * 2 ^ e') := by
      apply Nat.le_trans _ (roundHalfEven_bounds N' (d' * 2 ^ e')).1
      rw [Nat.le_div_iff_mul_le hpos', Nat.mul_comm]
      exact hlower' (by omega)
    rw [hbinade]
    have hstep : (e + 1) * 2 ^ 52 ≤ e' * 2 ^ 52 := Nat.mul_le_mul_right _ hlt
    omega
  · have hscaled : N * (d' * 2 ^ e) ≤ N' * (d * 2 ^ e) := by nlinarith
    have hround := roundHalfEven_mono hpos hpos' hscaled
    omega
  · exfalso
    have hpow : 2 ^ (e' + 53) ≤ 2 ^ (e + 52) := Nat.pow_le_pow_right (by decide) (by omega)
    rw [Nat.pow_add, Nat.pow_add] at hpow
    have hle := hlower (by omega)
    have hcross : N * d' < N * d' :=
      calc N * d' ≤ N' * d := hshifted
        _ < d' * 2 ^ e' * 2 ^ 53 * d := Nat.mul_lt_mul_of_pos_right hupper' hd
        _ = 2 ^ e' * 2 ^ 53 * (d * d') := by ring
        _ ≤ 2 ^ e * 2 ^ 52 * (d * d') := Nat.mul_le_mul_right _ hpow
        _ = d * 2 ^ e * 2 ^ 52 * d' := by ring
        _ ≤ N * d' := Nat.mul_le_mul_right _ hle
    exact Nat.lt_irrefl _ hcross

/-- What is at most a fraction with a finite bit pattern is rounded to a finite one as well. -/
theorem exists_nearest?_of_le {n d n' d' : Nat} (hd : 0 < d) (hd' : 0 < d')
    (h : n * d' ≤ n' * d) (hfinite : roundedPattern n' d' < binary64Limit) :
    ∃ x, nearest? n d = some x ∧ x.val = roundedPattern n d := by
  have hle := roundedPattern_mono hd hd' h
  rw [nearest?_eq, dif_pos (by omega)]
  exact ⟨_, rfl, rfl⟩

/-! ## The values of bit patterns -/

/-- From one bit pattern to the next, the value grows by a unit of the last place. -/
theorem units_succ (pattern : Nat) : units (pattern + 1) = units pattern + 2 ^ scale pattern := by
  have hbinade : binade = 2 ^ 52 := by decide
  unfold units significand scale
  rw [Nat.shiftLeft_eq, Nat.shiftLeft_eq, hbinade]
  by_cases hsub : pattern + 1 < 2 ^ 52
  · rw [if_pos hsub, if_pos (by omega), Nat.div_eq_of_lt hsub, Nat.div_eq_of_lt (by omega)]
    ring
  · rw [if_neg hsub]
    by_cases hfirst : pattern < 2 ^ 52
    · have hlast : pattern + 1 = 2 ^ 52 := by omega
      rw [if_pos hfirst, hlast, Nat.div_eq_of_lt hfirst]
      norm_num
      omega
    · obtain ⟨last, hlast⟩ : ∃ last, pattern / 2 ^ 52 = last + 1 :=
        Nat.exists_eq_succ_of_ne_zero (by omega)
      rw [if_neg hfirst, hlast, Nat.add_sub_cancel]
      by_cases hcarry : pattern % 2 ^ 52 + 1 = 2 ^ 52
      · have hdiv : (pattern + 1) / 2 ^ 52 = last + 2 := by omega
        have hmod : (pattern + 1) % 2 ^ 52 = 0 := by omega
        have htop : pattern % 2 ^ 52 = 2 ^ 52 - 1 := by omega
        rw [hdiv, hmod, htop, show last + 2 - 1 = last + 1 from rfl, Nat.pow_succ]
        omega
      · have hdiv : (pattern + 1) / 2 ^ 52 = last + 1 := by omega
        have hmod : (pattern + 1) % 2 ^ 52 = pattern % 2 ^ 52 + 1 := by omega
        rw [hdiv, hmod, Nat.add_sub_cancel]
        ring

/-- A greater bit pattern has no smaller value. -/
theorem units_mono {pattern greater : Nat} (h : pattern ≤ greater) :
    units pattern ≤ units greater := by
  induction h with
  | refl => exact Nat.le_refl _
  | step _ ih =>
    rw [units_succ]
    exact Nat.le_trans ih (Nat.le_add_right ..)

/-- A positive bit pattern stands for at least one unit of its last place. -/
theorem two_pow_scale_le_units {pattern : Nat} (h : 0 < pattern) :
    2 ^ scale pattern ≤ units pattern := by
  have hsignificand : 1 ≤ significand pattern := by
    have hbinade : 0 < binade := by decide
    unfold significand
    split <;> omega
  rw [units, Nat.shiftLeft_eq]
  exact Nat.le_mul_of_pos_left _ hsignificand

/-- How many units make one. -/
def unitsInOne : Nat := 1 <<< 1074

/-- Shifting by the exponent of the units counts in units. -/
theorem shiftLeft_eq_mul_unitsInOne (n : Nat) : n <<< 1074 = n * unitsInOne := by
  rw [unitsInOne, Nat.one_shiftLeft, Nat.shiftLeft_eq]

/-- One is made of some units. -/
theorem unitsInOne_pos : 0 < unitsInOne := by
  rw [unitsInOne, Nat.one_shiftLeft]
  exact Nat.two_pow_pos 1074

/-- The absolute value that a bit pattern stands for. -/
def value (pattern : Nat) : ℚ := units pattern / unitsInOne

/-! Numbers of this size are only compared, never computed by unfolding. -/

attribute [irreducible] roundedPattern unitsInOne

end EventSnapshot.Binary64
