import EventSnapshot.Json.Parser

/-!
# What texts hold

Lemmas on the values that texts are scanned as.
-/

namespace EventSnapshot

/-- A text holds a value exactly if it holds its tree. -/
theorem Value.parse_eq_ok_iff {text : String} {value : Value} :
    Value.parse text = .ok value ↔ Json.parse text = .ok value.json := by
  obtain ⟨json, hcanonical⟩ := value
  unfold Value.parse
  split
  · next h => simp only [h, Except.ok.injEq, Value.mk.injEq]
  · next h => simp [h]

/-- A text holds no value exactly if it holds no tree, for the same reason. -/
theorem Value.parse_eq_error_iff {text : String} {fault : Json.Fault} :
    Value.parse text = .error fault ↔ Json.parse text = .error fault := by
  unfold Value.parse
  split
  · next h => simp [h]
  · next h => simp [h]

namespace Json

variable {c : Char} {cs spaced rest : List Char} {n : Number}

/-- A digit is none of the other characters. -/
theorem ne_of_isDigit (hdigit : c.isDigit) (other : Char) (hother : other.isDigit = false) :
    c ≠ other := by
  rintro rfl
  rw [hdigit] at hother
  cases hother

/-- A digit is no space. -/
theorem isSpace_of_isDigit (hdigit : c.isDigit) : isSpace c = false := by
  have hne := ne_of_isDigit hdigit
  simp [isSpace, hne ' ' rfl, hne '\t' rfl, hne '\n' rfl, hne '\r' rfl]

/-- Before a character that is no space, none is skipped. -/
theorem skipSpaces_cons (hspace : isSpace c = false) : skipSpaces (c :: cs) = c :: cs := by
  rw [skipSpaces, List.dropWhile_cons_of_neg (by simp [hspace])]

/-- What starts with a digit, but for spaces, is scanned as a number. -/
theorem scanValue_of_isDigit {fuel depth : Nat} (hstart : skipSpaces spaced = c :: cs)
    (hdigit : c.isDigit) (h : scanNumber false (c :: cs) = .ok (n, rest)) :
    scanValue fuel depth spaced = .ok (.number n, rest) := by
  -- No character that another kind of value starts with is a digit.
  have hne := ne_of_isDigit hdigit
  rw [scanValue.eq_def, hstart]
  simp [hne 'n' rfl, hne 't' rfl, hne 'f' rfl, hne '"' rfl, hne '-' rfl, hdigit, h, bind,
    Except.bind]

/-- A text holds a number if it is scanned as that from its first digit on and spaces are around
it. -/
theorem parse_of_isDigit (rest : List Char) {text : String}
    (hstart : skipSpaces text.toList = c :: cs) (hdigit : c.isDigit)
    (h : scanNumber false (c :: cs) = .ok (n, rest)) (hrest : (skipSpaces rest).isEmpty) :
    parse text = .ok (.number n) := by
  simp only [parse, scanValue_of_isDigit hstart hdigit h, bind, Except.bind, if_pos hrest]

end Json

end EventSnapshot
