import EventSnapshot.Json.Number
import EventSnapshot.Proofs.Binary64.Shortest

/-!
# Scaling by powers of ten

A written floating-point number is computed from its digits and its power of ten, which are rounded
one after the other. For at most 17 digits and a value not above the greatest finite number, neither
step leaves the finite numbers.
-/

namespace EventSnapshot.Json.Number

open Binary64

attribute [local irreducible] units binary64Limit topExponent

/-- The bound of the significands that are read: no whole number of 17 digits is above it. -/
@[irreducible]
def topSignificand : Nat := 10 ^ 17

/-- Some powers of ten are finite numbers. -/
theorem topExponent_pos : 0 < topExponent := by
  rw [topExponent]
  decide

/-- The bound of the significands is a finite number and is not rounded up. -/
theorem roundedPattern_topSignificand : roundedPattern topSignificand 1 < binary64Limit ∧
    units (roundedPattern topSignificand 1) ≤ topSignificand * unitsInOne := by
  decide +kernel

/-- One is not rounded down, the greatest power of ten is a finite number, and the next one is above
all finite numbers. -/
theorem powers_of_ten_bounds : unitsInOne ≤ units (roundedPattern 1 1) ∧
    roundedPattern (Nat.pow 10 topExponent) 1 < binary64Limit ∧
    greatestWhole < Nat.pow 10 (topExponent + 1) := by
  decide +kernel

/-- Zero is rounded to itself. -/
theorem roundedPattern_zero : roundedPattern 0 1 = 0 := by
  decide +kernel

/-- What is at most the bound of the significands is a finite number, not above that bound. -/
theorem exists_nearest?_of_le_topSignificand {n d : Nat} (hd : 0 < d) (h : n ≤ topSignificand * d) :
    ∃ x : Fin binary64Limit, nearest? n d = some x ∧ x.val = roundedPattern n d ∧
      units x ≤ topSignificand * unitsInOne := by
  rw [← Nat.mul_one n] at h
  obtain ⟨hfinite, hunits⟩ := roundedPattern_topSignificand
  obtain ⟨x, hx, hval⟩ := exists_nearest?_of_le hd (by decide) h hfinite
  refine ⟨x, hx, hval, ?_⟩
  rw [hval]
  exact (units_mono (roundedPattern_mono hd (by decide) h)).trans hunits

/-- Powers of ten grow with the exponent. -/
theorem pow_ten_le {k m : Nat} (h : k ≤ m) : Nat.pow 10 k ≤ Nat.pow 10 m :=
  Nat.pow_le_pow_right (by decide) h

/-- Powers of ten up to the greatest are finite numbers, and not below one. -/
theorem exists_powerOfTen? {k : Nat} (h : k ≤ topExponent) :
    ∃ x : Fin binary64Limit, powerOfTen? k = some x ∧ x.val = roundedPattern (Nat.pow 10 k) 1 ∧
      unitsInOne ≤ units x := by
  have hgreatest : Nat.pow 10 k * 1 ≤ Nat.pow 10 topExponent * 1 :=
    Nat.mul_le_mul_right 1 (pow_ten_le h)
  have hleast : 1 * 1 ≤ Nat.pow 10 k * 1 :=
    Nat.mul_le_mul_right 1 (Nat.one_le_pow k 10 (by decide))
  obtain ⟨hone, hfinite, -⟩ := powers_of_ten_bounds
  obtain ⟨x, hx, hval⟩ := exists_nearest?_of_le (by decide) (by decide) hgreatest hfinite
  refine ⟨x, hx, hval, ?_⟩
  rw [hval]
  exact hone.trans (units_mono (roundedPattern_mono (by decide) (by decide) hleast))

attribute [local irreducible] powerOfTen? nearest?

/-- Dividing by a number that is not below one keeps below the bound of the significands. -/
theorem exists_div? {x y : Fin binary64Limit} (hx : units x ≤ topSignificand * unitsInOne)
    (hy : unitsInOne ≤ units y) :
    ∃ z : Fin binary64Limit, div? x y = some z ∧ units z ≤ topSignificand * unitsInOne := by
  obtain ⟨z, hz, -, hbound⟩ := exists_nearest?_of_le_topSignificand
    (Nat.lt_of_lt_of_le unitsInOne_pos hy) (hx.trans (Nat.mul_le_mul_left _ hy))
  exact ⟨z, hz, hbound⟩

/-- Divisions by powers of ten do not leave the finite numbers. -/
theorem exists_divideByPowers {x : Fin binary64Limit} {last : Nat} (hlast : last ≤ topExponent)
    (times : Nat) (hx : units x ≤ topSignificand * unitsInOne) :
    ∃ y, divideByPowers x last times = some y := by
  induction times generalizing x with
  | zero =>
    obtain ⟨power, hpower, -, hone⟩ := exists_powerOfTen? hlast
    obtain ⟨y, hy, -⟩ := exists_div? hx hone
    exact ⟨y, by rw [divideByPowers, hpower, Option.bind_some, hy]⟩
  | succ times ih =>
    obtain ⟨power, hpower, -, hone⟩ := exists_powerOfTen? (Nat.le_refl topExponent)
    obtain ⟨y, hy, hbound⟩ := exists_div? hx hone
    rw [divideByPowers, hpower, Option.bind_eq_bind, Option.bind_some, hy]
    split
    · exact ⟨x, rfl⟩
    · exact ih hbound

/-- The greatest significand that is read before a power of ten. -/
@[irreducible]
def significandLimit (exponent : Nat) : Nat :=
  min topSignificand (greatestWhole / Nat.pow 10 exponent)

/-- The greatest exponent before which every significand stays finite. -/
@[irreducible]
def freeExponent : Nat := 291

/-- Before that exponent the significands are only bounded by their digits. From it on, the greatest
significand has a finite product with the power of ten, both factors rounded. -/
theorem significandLimit_spec : significandLimit freeExponent = topSignificand ∧
    ∀ k ≤ topExponent - freeExponent,
      roundedPattern (units (roundedPattern (significandLimit (freeExponent + k)) 1) *
        units (roundedPattern (Nat.pow 10 (freeExponent + k)) 1)) (1 <<< 2148) <
          binary64Limit := by
  decide +kernel

/-- Products of at most the greatest finite number do not leave the finite numbers. -/
theorem exists_mul? {significand exponent : Nat} {x y : Fin binary64Limit}
    (hexponent : exponent ≤ topExponent) (hlimit : significand ≤ significandLimit exponent)
    (hx : x.val = roundedPattern significand 1)
    (hy : y.val = roundedPattern (Nat.pow 10 exponent) 1) : ∃ z, mul? x y = some z := by
  obtain ⟨hfree, hfinite⟩ := significandLimit_spec
  -- A smaller exponent is compared with the greatest that leaves the significand free.
  obtain ⟨k, hk, hsignificand, hpower⟩ : ∃ k ≤ topExponent - freeExponent,
      significand ≤ significandLimit (freeExponent + k) ∧
        Nat.pow 10 exponent ≤ Nat.pow 10 (freeExponent + k) := by
    rcases Nat.le_total exponent freeExponent with hsmall | hlarge
    · refine ⟨0, Nat.zero_le _, ?_, pow_ten_le hsmall⟩
      rw [significandLimit] at hlimit
      rw [Nat.add_zero, hfree]
      exact hlimit.trans (Nat.min_le_left ..)
    · obtain ⟨k, rfl⟩ := Nat.exists_eq_add_of_le hlarge
      exact ⟨k, by omega, hlimit, Nat.le_refl _⟩
  have hone : 0 < 1 := by decide
  have hsignificand' := units_mono
    (roundedPattern_mono hone hone (Nat.mul_le_mul_right 1 hsignificand))
  have hpower' := units_mono (roundedPattern_mono hone hone (Nat.mul_le_mul_right 1 hpower))
  rw [← hx] at hsignificand'
  rw [← hy] at hpower'
  have hpos : 0 < 1 <<< 2148 := by
    rw [Nat.one_shiftLeft]
    exact Nat.two_pow_pos 2148
  obtain ⟨z, hz, -⟩ := exists_nearest?_of_le hpos hpos
    (Nat.mul_le_mul_right _ (Nat.mul_le_mul hsignificand' hpower')) (hfinite k hk)
  exact ⟨z, hz⟩

/-- A decimal of at most 17 digits that is not above the greatest finite number is read as a finite
number. -/
theorem exists_scaled? {decimal : Decimal} (hdigits : decimal.digits ≤ topSignificand)
    (hvalue : decimal.value ≤ greatest) :
    ∃ x, scaled? decimal.digits decimal.exponent = some x := by
  obtain ⟨significand, exponent⟩ := decimal
  dsimp only at hdigits ⊢
  have hscaled : significand ≤ topSignificand * 1 := by rwa [Nat.mul_one]
  obtain ⟨x, hx, hval, hbound⟩ := exists_nearest?_of_le_topSignificand Nat.one_pos hscaled
  rw [scaled?, hx, Option.bind_some, timesPower?]
  split
  · apply exists_divideByPowers _ _ hbound
    have hsplit := Nat.div_add_mod' (exponent.natAbs - 1) topExponent
    have hrest := Nat.mod_lt (exponent.natAbs - 1) topExponent_pos
    omega
  · next hnonneg =>
    obtain ⟨n, rfl⟩ := Int.eq_ofNat_of_zero_le (Int.not_lt.mp hnonneg)
    split
    · exact ⟨x, rfl⟩
    · next hne =>
      have hpos : 0 < significand := by
        rw [Nat.pos_iff_ne_zero]
        rintro rfl
        exact hne (hval.trans roundedPattern_zero)
      rw [value_natCast_le_greatest_iff] at hvalue
      have hlimit : significand ≤ significandLimit n := by
        rw [significandLimit]
        exact Nat.le_min.mpr ⟨hdigits, (Nat.le_div_iff_mul_le (Nat.pow_pos (by decide))).mpr hvalue⟩
      have hn : n ≤ topExponent := by
        by_contra hlarge
        have hgreatest := Nat.lt_of_lt_of_le powers_of_ten_bounds.2.2
          (pow_ten_le (Nat.not_le.mp hlarge))
        exact Nat.not_lt.mpr ((Nat.le_mul_of_pos_left _ hpos).trans hvalue) hgreatest
      obtain ⟨power, hpower, hpattern, -⟩ := exists_powerOfTen? hn
      obtain ⟨z, hz⟩ := exists_mul? hn hlimit hval hpattern
      have hle : ¬ (topExponent : Int) < n := by omega
      rw [if_neg hle, Int.natAbs_natCast, hpower, Option.bind_some]
      exact ⟨z, hz⟩

end EventSnapshot.Json.Number
