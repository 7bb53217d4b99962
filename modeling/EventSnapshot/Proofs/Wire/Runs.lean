import EventSnapshot.Wire.Reader

/-!
# Runs of readers

How a reader goes on from a position. A sequence of readers is run one after the other, the first
failure ends it, and bytes in front of the position where a reader starts make no difference to it.
-/

namespace EventSnapshot.Wire.Reader

variable {α β : Type} {bytes : ByteArray} {start : Nat}

/-- In a sequence, the second reader starts where the first one stopped. -/
theorem run_bind (first : Reader α) (next : α → Reader β) (bytes : ByteArray) (start : Nat) :
    (first >>= next).run bytes start =
      first.run bytes start >>= fun (value, position) => (next value).run bytes position := by
  change (first.bind next).run bytes start = _
  induction first generalizing start with
  | done value => rfl
  | fail error => rfl
  | take count rest ih =>
    rw [Reader.bind, run, run]
    split
    · exact ih _ _
    · rfl

/-- After a first reader that succeeds, the second one decides. -/
theorem run_bind_of_ok {first : Reader α} {next : α → Reader β} {value : α} {position : Nat}
    (h : first.run bytes start = .ok (value, position)) :
    (first >>= next).run bytes start = (next value).run bytes position := by
  rw [run_bind, h]
  rfl

/-- A sequence fails if its first reader does. -/
theorem run_bind_of_error {first : Reader α} {next : α → Reader β} {error : WireError}
    (h : first.run bytes start = .error error) :
    (first >>= next).run bytes start = .error error := by
  rw [run_bind, h]
  rfl

/-- A sequence succeeds if both of its readers do, and not otherwise. -/
theorem run_bind_eq_ok_iff {first : Reader α} {next : α → Reader β} {result : β × Nat} :
    (first >>= next).run bytes start = .ok result ↔
      ∃ value position, first.run bytes start = .ok (value, position) ∧
        (next value).run bytes position = .ok result := by
  rw [run_bind, Json.bind_eq_ok]
  constructor
  · rintro ⟨⟨value, position⟩, hfirst, hnext⟩
    exact ⟨value, position, hfirst, hnext⟩
  · rintro ⟨value, position, hfirst, hnext⟩
    exact ⟨(value, position), hfirst, hnext⟩

/-- A mapped reader stops where the reader does. -/
theorem run_map (f : α → β) (reader : Reader α) (bytes : ByteArray) (start : Nat) :
    (f <$> reader).run bytes start =
      (reader.run bytes start).map fun (value, position) => (f value, position) := by
  change (reader >>= fun value => pure (f value)).run bytes start = _
  rw [run_bind]
  cases reader.run bytes start <;> rfl

/-- A reader does not look at the bytes in front of the position where it starts. -/
theorem run_congr {reader : Reader α} {other : ByteArray} (hsize : bytes.size = other.size)
    (hsame : bytes.extract start bytes.size = other.extract start other.size) :
    reader.run bytes start = reader.run other start := by
  induction reader generalizing start with
  | done value => rfl
  | fail error => rfl
  | take count next ih =>
    rw [run, run, ← hsize]
    by_cases hfits : start + count ≤ bytes.size
    · have hcut (array : ByteArray) (harray : array.size = bytes.size) (stop : Nat) :
          (array.extract start array.size).extract 0 count = array.extract start (start + count) ∧
            (array.extract start array.size).extract count stop =
              array.extract (start + count) (min (start + stop) array.size) := by
        rw [ByteArray.extract_extract, ByteArray.extract_extract, harray]
        constructor
        · congr 1
          omega
        · rfl
      have hmine := hcut bytes rfl bytes.size
      have htheirs := hcut other hsize.symm bytes.size
      have htaken : bytes.extract start (start + count) = other.extract start (start + count) := by
        rw [← hmine.1, hsame, htheirs.1]
      have hrest : bytes.extract (start + count) bytes.size =
          other.extract (start + count) other.size := by
        have hstop : min (start + bytes.size) bytes.size = bytes.size := by omega
        have hrest := hmine.2
        rw [hsame, htheirs.2, ← hsize, hstop] at hrest
        rw [← hrest, hsize]
      rw [if_pos hfits, if_pos hfits, htaken]
      exact ih _ hrest
    · rw [if_neg hfits, if_neg hfits]

end EventSnapshot.Wire.Reader
