import Mathlib.Tactic.ByContra
import Mathlib.Tactic.SplitIfs

/-!
# Texts and their bytes

Bytes are read as a text exactly if they are the UTF-8 bytes of that text. Texts are ordered by
their code points. Their bytes give the same order, because the first byte of a character grows with
the number of its bytes, and each byte after it is a digit to base 64 of the code point.
-/

namespace EventSnapshot.Text

/-- Bytes are read as a text exactly if they are the text's own. -/
theorem fromUTF8?_eq_some_iff {bytes : ByteArray} {text : String} :
    String.fromUTF8? bytes = some text ↔ bytes = text.toUTF8 := by
  rw [String.fromUTF8?]
  split
  · next hvalid =>
    rw [Option.some_inj, String.toUTF8_eq_toByteArray, ← String.toByteArray_inj]
    rfl
  · next hinvalid =>
    constructor
    · intro h
      cases h
    · rintro rfl
      exact absurd text.isValidUTF8 hinvalid

/-- The bytes of a smaller character are smaller, whatever follows them. -/
theorem utf8EncodeChar_append_lt {c d : Char} (h : c < d) (cs ds : List UInt8) :
    String.utf8EncodeChar c ++ cs < String.utf8EncodeChar d ++ ds := by
  have hlt : c.toNat < d.toNat := h
  have hbound : d.toNat < 0x110000 := by
    rcases d.valid with hlow | ⟨-, hhigh⟩
    · exact Nat.lt_trans hlow (by decide)
    · exact hhigh
  -- Each digit of a number is the last one of what is left when the lower digits are taken off.
  have hdigits (n : Nat) : n / 64 / 64 = n / 4096 ∧ n / 4096 / 64 = n / 262144 := by omega
  obtain ⟨hsecond, hthird⟩ := hdigits c.toNat
  obtain ⟨hsecond', hthird'⟩ := hdigits d.toNat
  -- With different numbers of bytes, the first ones differ; with equal numbers, the first digit in
  -- which the code points differ is the first byte in which the encodings do.
  simp only [String.utf8EncodeChar, Char.toNat_val]
  split_ifs <;>
    simp (disch := omega) only [List.cons_append, List.nil_append, List.cons_lt_cons_iff,
      UInt8.lt_iff_toNat_lt, ← UInt8.toNat_inj, UInt8.toNat_ofNat', Nat.mod_eq_of_lt] <;>
    omega

/-- The bytes of a text are those of its characters. -/
theorem toList_toUTF8 (text : String) :
    text.toUTF8.data.toList = text.toList.flatMap String.utf8EncodeChar := by
  rw [String.toUTF8_eq_toByteArray, ← String.utf8Encode_toList, List.utf8Encode,
    List.toList_data_toByteArray]

/-- One text is before another exactly if its UTF-8 bytes are before those of the other. -/
theorem lt_iff_utf8_lt (text other : String) :
    text < other ↔ text.toUTF8.data.toList < other.toUTF8.data.toList := by
  have hmono : ∀ cs ds : List Char, cs < ds →
      cs.flatMap String.utf8EncodeChar < ds.flatMap String.utf8EncodeChar := by
    intro cs ds h
    induction h with
    | @nil d ds =>
      obtain ⟨first, rest, hbytes⟩ :=
        List.exists_cons_of_ne_nil (String.utf8EncodeChar_ne_nil (c := d))
      rw [List.flatMap_nil, List.flatMap_cons, hbytes]
      exact List.nil_lt_cons ..
    | rel h => exact utf8EncodeChar_append_lt h _ _
    | cons h ih => exact List.append_left_lt ih
  rw [toList_toUTF8, toList_toUTF8]
  constructor
  · exact hmono _ _
  · intro h
    by_contra hnot
    have hne : text ≠ other := by
      rintro rfl
      exact List.lt_irrefl _ h
    have hgt : other < text := by
      by_contra hle
      exact hne (String.le_antisymm (String.not_lt.mp hle) (String.not_lt.mp hnot))
    exact List.lt_irrefl _ (List.lt_trans h (hmono _ _ hgt))

end EventSnapshot.Text
