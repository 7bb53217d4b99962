import EventSnapshot.Wire.BigEndian
import Mathlib.Algebra.Group.Nat.Defs

/-!
# Big-endian numbers, there and back

A number that fits its width is read back as it was written, and the bytes of a number are written
again as they were.
-/

namespace EventSnapshot.Wire

/-- A written number has its width. -/
theorem length_bigEndianList (width n : Nat) : (bigEndianList width n).length = width := by
  induction width generalizing n with
  | zero => rfl
  | succ width ih => simp [bigEndianList, ih]

/-- A written number has its width. -/
@[simp] theorem size_bigEndian (width n : Nat) : (bigEndian width n).size = width := by
  rw [bigEndian, List.size_toByteArray, length_bigEndianList]

/-- One more byte is one more digit. -/
theorem ofBigEndianList_append_singleton (bytes : List UInt8) (last : UInt8) :
    ofBigEndianList (bytes ++ [last]) = ofBigEndianList bytes * 256 + last.toNat := by
  simp [ofBigEndianList]

/-- A number that fits its width is read back as it was written. -/
theorem ofBigEndianList_bigEndianList {width n : Nat} (h : n < 256 ^ width) :
    ofBigEndianList (bigEndianList width n) = n := by
  induction width generalizing n with
  | zero =>
    have hn : n = 0 := by simpa using h
    simp [hn, bigEndianList, ofBigEndianList]
  | succ width ih =>
    have hdiv : n / 256 < 256 ^ width := by
      rw [Nat.pow_succ] at h
      omega
    rw [bigEndianList, ofBigEndianList_append_singleton, ih hdiv, UInt8.toNat_ofNat']
    omega

/-- What some bytes make fits their number, and writes them again. -/
theorem bigEndianList_ofBigEndianList (bytes : List UInt8) :
    ofBigEndianList bytes < 256 ^ bytes.length ∧
      bigEndianList bytes.length (ofBigEndianList bytes) = bytes := by
  -- The last digit is at the end of the list, so the induction takes it off there.
  generalize hlength : bytes.length = length
  induction length generalizing bytes with
  | zero =>
    rw [List.eq_nil_of_length_eq_zero hlength]
    exact ⟨by decide, rfl⟩
  | succ length ih =>
    have hne : bytes ≠ [] := by
      intro hnil
      simp [hnil] at hlength
    obtain ⟨hlt, hbytes⟩ := ih bytes.dropLast (by simp [hlength])
    rw [← List.dropLast_concat_getLast hne]
    generalize bytes.getLast hne = last at *
    generalize bytes.dropLast = front at *
    rw [ofBigEndianList_append_singleton]
    have hlast := last.toNat_lt
    constructor
    · rw [Nat.pow_succ]
      omega
    · have hdiv : (ofBigEndianList front * 256 + last.toNat) / 256 = ofBigEndianList front := by
        omega
      have hmod : UInt8.ofNat (ofBigEndianList front * 256 + last.toNat) = last := by
        apply UInt8.toNat_inj.mp
        rw [UInt8.toNat_ofNat']
        omega
      rw [bigEndianList, hdiv, hbytes, hmod]

/-- A number that fits its width is read back as it was written. -/
theorem ofBigEndian_bigEndian {width n : Nat} (h : n < 256 ^ width) :
    ofBigEndian (bigEndian width n) = n := by
  rw [ofBigEndian, bigEndian, List.toList_data_toByteArray, ofBigEndianList_bigEndianList h]

/-- What some bytes make fits their number. -/
theorem ofBigEndian_lt (bytes : ByteArray) : ofBigEndian bytes < 256 ^ bytes.size := by
  simpa [ofBigEndian] using (bigEndianList_ofBigEndianList bytes.data.toList).1

/-- What some bytes make writes them again. -/
theorem bigEndian_ofBigEndian (bytes : ByteArray) :
    bigEndian bytes.size (ofBigEndian bytes) = bytes := by
  have h := (bigEndianList_ofBigEndianList bytes.data.toList).2
  rw [Array.length_toList, ByteArray.size_data] at h
  rw [bigEndian, ofBigEndian, h]
  exact ByteArray.ext (by simp)

end EventSnapshot.Wire
