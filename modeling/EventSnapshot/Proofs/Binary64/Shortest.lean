import EventSnapshot.Binary64.Shortest
import EventSnapshot.Proofs.Binary64.Rounding
import Mathlib.Algebra.Order.Field.Power
import Mathlib.Algebra.Order.Field.Rat
import Mathlib.Data.List.Basic
import Mathlib.Data.List.TakeWhile

/-!
# Shortest decimals

The shortest decimal of a finite number has at most 17 digits and is no greater than the greatest
finite number.
-/

namespace EventSnapshot.Binary64

/-- The number that a decimal stands for. -/
def Decimal.value (decimal : Decimal) : ℚ := decimal.digits * 10 ^ decimal.exponent

/-- The first digit of a number stands at its leading exponent. -/
theorem value_lt (pattern : Nat) : value pattern < 10 ^ (leadingExponent pattern + 1) := by
  have hone : (0 : ℚ) < unitsInOne := by exact_mod_cast unitsInOne_pos
  have hshift : units pattern >>> 1074 = units pattern / unitsInOne := by
    rw [Nat.shiftRight_eq_div_pow, unitsInOne, Nat.one_shiftLeft]
  unfold leadingExponent
  rw [value, div_lt_iff₀ hone, hshift]
  dsimp only
  split
  · next hwhole =>
    generalize hlength : (Nat.toDigits 10 (units pattern / unitsInOne)).length = length
    have hpos : 0 < length := hlength ▸ Nat.length_toDigits_pos
    have hlt : units pattern / unitsInOne < 10 ^ length :=
      (Nat.length_toDigits_le_iff (by decide) hpos).mp hlength.le
    rw [Nat.div_lt_iff_lt_mul unitsInOne_pos] at hlt
    rw [Int.sub_add_cancel, zpow_natCast]
    exact_mod_cast hlt
  · next hwhole =>
    -- No power of ten before the one that was found reaches one.
    have hbelow {j : Nat} (hj : (!decide (1 <<< 1074 ≤ units pattern * Nat.pow 10 j)) = true) :
        (units pattern : ℚ) < 10 ^ (-(j : Int)) * unitsInOne := by
      have hten : (0 : ℚ) < 10 ^ j := by positivity
      rw [Bool.not_eq_true', decide_eq_false_iff_not, ← unitsInOne, Nat.not_le] at hj
      rw [zpow_neg, zpow_natCast, inv_mul_eq_div, lt_div_iff₀ hten]
      exact_mod_cast hj
    split
    · next j hfound =>
      obtain ⟨-, -, hbefore⟩ := List.find?_range_eq_some.mp hfound
      cases j with
      | zero =>
        have hlt : units pattern < unitsInOne := by
          by_contra hge
          exact hwhole (Nat.div_pos (Nat.not_lt.mp hge) unitsInOne_pos)
        have hcast : (units pattern : ℚ) < unitsInOne := by exact_mod_cast hlt
        refine hcast.trans_le (le_mul_of_one_le_left hone.le ?_)
        norm_num
      | succ j =>
        have hj := hbefore j (Nat.lt_succ_self j)
        have hexponent : -((j + 1 : Nat) : Int) + 1 = -(j : Int) := by omega
        rw [hexponent]
        exact hbelow hj
    · next hnone =>
      rw [List.find?_range_eq_none] at hnone
      exact hbelow (hnone 323 (by decide))

/-- A decimal that was found rounds to the bit pattern, and is a neighbour of it on its grid. -/
theorem decimalOfLength?_eq_some {pattern length : Nat} {leading : Int} {decimal : Decimal}
    (h : decimalOfLength? pattern leading length = some decimal) :
    decimal.exponent = leading - length + 1 ∧
      roundsBack pattern decimal.digits (10 ^ decimal.exponent.toNat)
        (10 ^ (-decimal.exponent).toNat) ∧
      decimal.digits ≤ units pattern * 10 ^ (-decimal.exponent).toNat /
        (10 ^ decimal.exponent.toNat * unitsInOne) + 1 := by
  unfold decimalOfLength? at h
  simp only [shiftLeft_eq_mul_unitsInOne] at h
  generalize hexponent : leading - length + 1 = exponent at h ⊢
  obtain ⟨-, hnear⟩ := roundHalfEven_bounds (units pattern * 10 ^ (-exponent).toNat)
    (10 ^ exponent.toNat * unitsInOne)
  generalize hfar : (if roundHalfEven (units pattern * 10 ^ (-exponent).toNat)
    (10 ^ exponent.toNat * unitsInOne) = _ then _ else _) = far at h
  split at h
  · next hback =>
    cases h
    exact ⟨rfl, hback, hnear⟩
  · split at h
    · next hback =>
      cases h
      refine ⟨rfl, hback, ?_⟩
      dsimp only
      rw [← hfar]
      split
      · exact Nat.le_refl _
      · exact Nat.le_succ _
    · cases h

/-- A power of ten as the fraction that the digits are compared by. -/
theorem ten_zpow_eq (exponent : Int) :
    (10 : ℚ) ^ exponent = 10 ^ exponent.toNat / 10 ^ (-exponent).toNat := by
  rcases Int.le_total 0 exponent with h | h
  · obtain ⟨n, rfl⟩ := Int.eq_ofNat_of_zero_le h
    simp
  · obtain ⟨n, hn⟩ := Int.eq_ofNat_of_zero_le (Int.neg_nonneg.mpr h)
    obtain rfl : exponent = -(n : Int) := by omega
    simp

/-- A decimal of some length that was found has at most as many digits, or is the next power of
ten. -/
theorem digits_le_of_decimalOfLength? {pattern length : Nat} {decimal : Decimal}
    (h : decimalOfLength? pattern (leadingExponent pattern) length = some decimal) :
    decimal.digits ≤ 10 ^ length := by
  obtain ⟨hexponent, -, hdigits⟩ := decimalOfLength?_eq_some h
  have hone : (0 : ℚ) < unitsInOne := by exact_mod_cast unitsInOne_pos
  have hvalue := value_lt pattern
  have hpower : (10 : ℚ) ^ (leadingExponent pattern + 1) = 10 ^ length * 10 ^ decimal.exponent := by
    rw [← zpow_natCast, ← zpow_add₀ (by norm_num), hexponent]
    congr 1
    omega
  rw [value, div_lt_iff₀ hone, hpower, ten_zpow_eq, mul_div_assoc', div_mul_eq_mul_div,
    lt_div_iff₀ (by positivity)] at hvalue
  have hunits : units pattern * 10 ^ (-decimal.exponent).toNat <
      10 ^ length * (10 ^ decimal.exponent.toNat * unitsInOne) := by
    rw [← Nat.mul_assoc]
    exact_mod_cast hvalue
  rw [← Nat.div_lt_iff_lt_mul (Nat.mul_pos (Nat.pow_pos (by decide)) unitsInOne_pos)] at hunits
  omega

/-- A decimal that rounds to a bit pattern is not below the lower end of what does, nor above the
upper end. -/
theorem le_of_roundsBack {pattern digits tenUp tenDown : Nat}
    (h : roundsBack pattern digits tenUp tenDown) :
    (roundingEnds pattern).1 * tenDown ≤ digits * tenUp * (4 * unitsInOne) ∧
      digits * tenUp * (4 * unitsInOne) ≤ (roundingEnds pattern).2 * tenDown := by
  have hshift : (digits * tenUp) <<< 1076 = digits * tenUp * (4 * unitsInOne) := by
    rw [show 1076 = 1074 + 2 from rfl, Nat.shiftLeft_add, shiftLeft_eq_mul_unitsInOne,
      Nat.shiftLeft_eq, Nat.mul_assoc, Nat.mul_comm unitsInOne]
  unfold roundsBack at h
  rw [hshift] at h
  dsimp only at h
  split at h
  · simpa using h
  · simp only [Bool.and_eq_true, decide_eq_true_eq] at h
    exact ⟨h.1.le, h.2.le⟩

/-- A decimal that rounds to a positive number has a digit that is not zero. -/
theorem digits_pos_of_roundsBack {pattern digits tenUp tenDown : Nat} (hpos : 0 < pattern)
    (hdown : 0 < tenDown) (h : roundsBack pattern digits tenUp tenDown) : 0 < digits := by
  have hunits := two_pow_scale_le_units hpos
  have hgap := Nat.two_pow_pos (scale pattern)
  have hlower : 0 < (roundingEnds pattern).1 := by
    unfold roundingEnds
    rw [Nat.one_shiftLeft]
    dsimp only
    split <;> omega
  by_contra hzero
  obtain rfl : digits = 0 := by omega
  have hle := (le_of_roundsBack h).1
  rw [Nat.zero_mul, Nat.zero_mul] at hle
  exact Nat.not_lt.mpr hle (Nat.mul_pos hlower hdown)

/-- The greatest finite number. -/
def greatest : ℚ := value (binary64Limit - 1)

/-- Zero is finite. -/
theorem greatest_nonneg : 0 ≤ greatest :=
  div_nonneg (Nat.cast_nonneg _) (Nat.cast_nonneg _)

/-- Comparing a decimal with the greatest finite number, in whole numbers. -/
theorem value_le_greatest_iff {decimal : Decimal} : decimal.value ≤ greatest ↔
    decimal.digits * 10 ^ decimal.exponent.toNat * unitsInOne ≤
      units (binary64Limit - 1) * 10 ^ (-decimal.exponent).toNat := by
  have hone : (0 : ℚ) < unitsInOne := by exact_mod_cast unitsInOne_pos
  rw [Decimal.value, greatest, value, ten_zpow_eq, mul_div_assoc',
    div_le_div_iff₀ (by positivity) hone]
  exact_mod_cast Iff.rfl

/-- The greatest finite number, which is whole. -/
@[irreducible]
def greatestWhole : Nat := units (binary64Limit - 1) / unitsInOne

/-- Comparing a whole decimal with the greatest finite number. -/
theorem value_natCast_le_greatest_iff {digits exponent : Nat} :
    Decimal.value ⟨digits, exponent⟩ ≤ greatest ↔ digits * 10 ^ exponent ≤ greatestWhole := by
  rw [value_le_greatest_iff, greatestWhole, Nat.le_div_iff_mul_le unitsInOne_pos]
  simp only [Int.toNat_natCast, Int.toNat_neg_natCast, Nat.pow_zero, Nat.mul_one]

/-- A decimal that rounds to a finite number other than the greatest is not above the greatest. -/
theorem value_le_of_roundsBack {pattern : Nat} {decimal : Decimal}
    (hfinite : pattern + 1 < binary64Limit)
    (h : roundsBack pattern decimal.digits (10 ^ decimal.exponent.toNat)
      (10 ^ (-decimal.exponent).toNat)) : decimal.value ≤ greatest := by
  -- Half a step above the number is still below the next one.
  have hends : (roundingEnds pattern).2 ≤ 4 * units (binary64Limit - 1) :=
    calc (roundingEnds pattern).2 = 4 * units pattern + 2 * 2 ^ scale pattern := by
          unfold roundingEnds
          rw [Nat.one_shiftLeft]
      _ ≤ 4 * units (pattern + 1) := by
          rw [units_succ]
          omega
      _ ≤ 4 * units (binary64Limit - 1) := Nat.mul_le_mul_left 4 (units_mono (by omega))
  have hle := (le_of_roundsBack h).2.trans (Nat.mul_le_mul_right _ hends)
  rw [value_le_greatest_iff]
  generalize decimal.digits * 10 ^ decimal.exponent.toNat = point at hle ⊢
  generalize 10 ^ (-decimal.exponent).toNat = tenDown at hle ⊢
  apply Nat.le_of_mul_le_mul_left _ (show 0 < 4 by decide)
  calc 4 * (point * unitsInOne) = point * (4 * unitsInOne) := by ring
    _ ≤ 4 * units (binary64Limit - 1) * tenDown := hle
    _ = 4 * (units (binary64Limit - 1) * tenDown) := by ring

/-! ## Zeros at the end -/

/-- Only zero is written with a zero first. -/
theorem head?_toDigits_ne {n : Nat} (h : 0 < n) : (Nat.toDigits 10 n).head? ≠ some '0' := by
  induction n using Nat.strongRecOn with
  | ind n ih =>
    rw [Nat.toDigits_eq_if (by decide)]
    split
    · simpa using h.ne'
    · have hfront := ih (n / 10) (by omega) (by omega)
      rwa [List.head?_append_of_ne_nil _ Nat.toDigits_ne_nil]

/-- A positive number has fewer zeros at its end than digits. -/
theorem ten_pow_zeros_le {n : Nat} (h : 0 < n) :
    10 ^ ((Nat.toDigits 10 n).reverse.takeWhile (· = '0')).length ≤ n := by
  generalize hzeros : ((Nat.toDigits 10 n).reverse.takeWhile (· = '0')).length = zeros
  have hlt : zeros < (Nat.toDigits 10 n).length := by
    have hstart := List.takeWhile_prefix (l := (Nat.toDigits 10 n).reverse) (· = '0')
    rw [← hzeros, ← @List.length_reverse _ (Nat.toDigits 10 n)]
    apply Nat.lt_of_le_of_ne hstart.length_le
    intro hall
    have heq := List.takeWhile_eq_self_iff.mp (hstart.eq_of_length hall)
    apply head?_toDigits_ne h
    obtain ⟨c, hc⟩ := Option.ne_none_iff_exists'.mp
      (mt List.head?_eq_none_iff.mp (Nat.toDigits_ne_nil (n := n) (b := 10)))
    have hzero := heq c (List.mem_reverse.mpr (List.mem_of_mem_head? hc))
    rw [hc, of_decide_eq_true hzero]
  by_contra hsmall
  cases zeros with
  | zero => exact hsmall h
  | succ zeros =>
    have hlength := (Nat.length_toDigits_le_iff (by decide) (Nat.succ_pos zeros)).mpr
      (Nat.not_le.mp hsmall)
    omega

/-- Without the zeros at its end a decimal does not get greater, and keeps its other digits. -/
theorem withoutZeros_spec {decimal : Decimal} (hpos : 0 < decimal.digits) :
    0 < decimal.withoutZeros.digits ∧ decimal.withoutZeros.digits ≤ decimal.digits ∧
      decimal.withoutZeros.value ≤ decimal.value := by
  have hzeros := ten_pow_zeros_le hpos
  unfold Decimal.withoutZeros Decimal.value
  dsimp only
  generalize ((Nat.toDigits 10 decimal.digits).reverse.takeWhile (· = '0')).length = zeros at *
  have hten : 0 < 10 ^ zeros := Nat.pow_pos (by decide)
  refine ⟨Nat.div_pos hzeros hten, Nat.div_le_self .., ?_⟩
  have hkept : ((decimal.digits / 10 ^ zeros : Nat) : ℚ) * 10 ^ zeros ≤ decimal.digits := by
    exact_mod_cast Nat.div_mul_le_self ..
  calc ((decimal.digits / 10 ^ zeros : Nat) : ℚ) * 10 ^ (decimal.exponent + zeros)
      = (decimal.digits / 10 ^ zeros : Nat) * 10 ^ zeros * 10 ^ decimal.exponent := by
        rw [zpow_add₀ (by norm_num), zpow_natCast]
        ring
    _ ≤ decimal.digits * 10 ^ decimal.exponent := by gcongr

/-- The shortest decimal of the greatest finite number is rounded down. -/
theorem value_shortest_greatest_le : (shortest (binary64Limit - 1)).value ≤ greatest :=
  value_le_greatest_iff.mpr (by decide +kernel)

/-- The shortest decimal is one of at most 17 digits that was found, without the zeros at its
end. -/
theorem shortest_eq (pattern : Nat) : shortest pattern = ⟨0, 0⟩ ∨
    ∃ length decimal, length ≤ 17 ∧
      decimalOfLength? pattern (leadingExponent pattern) length = some decimal ∧
      shortest pattern = decimal.withoutZeros := by
  unfold shortest
  dsimp only
  split
  · next decimal hfound =>
    obtain ⟨n, hn, hdecimal⟩ := List.exists_of_findSome?_eq_some hfound
    exact .inr ⟨n + 1, decimal, List.mem_range.mp hn, hdecimal, rfl⟩
  · exact .inl rfl

/-- What the shortest decimal of a positive finite number satisfies. -/
theorem shortest_spec {pattern : Nat} (hpos : 0 < pattern) (hfinite : pattern < binary64Limit) :
    ((shortest pattern).digits = 0 → (shortest pattern).exponent = 0) ∧
      (shortest pattern).digits ≤ 10 ^ 17 ∧ (shortest pattern).value ≤ greatest := by
  rcases shortest_eq pattern with heq | ⟨length, decimal, hlength, hdecimal, heq⟩
  · rw [heq]
    exact ⟨fun _ => rfl, Nat.zero_le _, by simpa [Decimal.value] using greatest_nonneg⟩
  · obtain ⟨-, hback, -⟩ := decimalOfLength?_eq_some hdecimal
    have hdigits := digits_pos_of_roundsBack hpos (Nat.pow_pos (by decide)) hback
    obtain ⟨hkept, hfewer, hvalue⟩ := withoutZeros_spec hdigits
    have hlong := digits_le_of_decimalOfLength? hdecimal
    have hbound : 10 ^ length ≤ 10 ^ 17 := Nat.pow_le_pow_right (by decide) hlength
    refine ⟨fun hzero => ?_, ?_, ?_⟩
    · rw [heq] at hzero
      omega
    · rw [heq]
      omega
    · rcases Nat.lt_or_eq_of_le (Nat.succ_le_of_lt hfinite) with hlt | hlast
      · rw [heq]
        exact hvalue.trans (value_le_of_roundsBack hlt hback)
      · obtain rfl : pattern = binary64Limit - 1 := by omega
        exact value_shortest_greatest_le

end EventSnapshot.Binary64
