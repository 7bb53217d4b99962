import EventSnapshot.Level
import EventSnapshot.Text.Numeral
import Mathlib.Data.List.TakeWhile
import Mathlib.Data.Nat.Digits.Defs
import Mathlib.Tactic.SplitIfs

/-!
# Texts of single values

A text may hold one value between blanks: a number of 64 bits, a truth value or the name of a
built-in level. For each of these it is said which texts spell which value, and that just these are
read as it.
-/

namespace EventSnapshot

namespace Text

/-! ## Blanks at the ends -/

/-- The text is an inner one with blanks around it, and the inner one has none at its ends. -/
structure TrimsTo (text inner : String) : Prop where
  /-- Around the inner text there are only blanks. -/
  around : ∃ before after, text.toList = before ++ inner.toList ++ after ∧
    (∀ c ∈ before, isBlank c) ∧ ∀ c ∈ after, isBlank c
  /-- The inner text does not start with a blank. -/
  start : ∀ c ∈ inner.toList.head?, ¬isBlank c
  /-- The inner text does not end in a blank. -/
  finish : ∀ c ∈ inner.toList.getLast?, ¬isBlank c

/-- Where no blank stands at the start, none is dropped. -/
theorem dropWhile_isBlank_eq_self {cs : List Char} (h : ∀ c ∈ cs.head?, ¬isBlank c) :
    cs.dropWhile isBlank = cs := by
  cases cs with
  | nil => rfl
  | cons c cs => exact List.dropWhile_cons_of_neg (h c rfl)

/-- After blanks are dropped, none stands at the start. -/
theorem not_isBlank_of_mem_head? {cs : List Char} {c : Char}
    (h : c ∈ (cs.dropWhile isBlank).head?) : ¬isBlank c := by
  have hnot := List.head?_dropWhile_not isBlank cs
  rw [h] at hnot
  simpa using hnot

/-- Blanks around a text without any at its ends are dropped. -/
theorem trimmed_append {before inner after : List Char} (hbefore : ∀ c ∈ before, isBlank c)
    (hafter : ∀ c ∈ after, isBlank c) (hstart : ∀ c ∈ inner.head?, ¬isBlank c)
    (hfinish : ∀ c ∈ inner.getLast?, ¬isBlank c) : trimmed (before ++ inner ++ after) = inner := by
  have hfront : (before ++ inner ++ after).dropWhile isBlank =
      (inner ++ after).dropWhile isBlank := by
    rw [List.append_assoc, List.dropWhile_append_of_pos hbefore]
  cases inner with
  | nil =>
    rw [trimmed, hfront, List.nil_append, List.dropWhile_eq_nil_iff.mpr hafter]
    rfl
  | cons c rest =>
    have hinner : (c :: rest ++ after).dropWhile isBlank = c :: rest ++ after :=
      dropWhile_isBlank_eq_self hstart
    have hback : ∀ c ∈ after.reverse, isBlank c := fun c hc => hafter c (List.mem_reverse.mp hc)
    rw [← List.head?_reverse] at hfinish
    rw [trimmed, hfront, hinner, List.reverse_append, List.dropWhile_append_of_pos hback,
      dropWhile_isBlank_eq_self hfinish, List.reverse_reverse]

/-- What is left of a text has no blanks at its ends, and blanks around it in the text. -/
theorem trimsTo_trim (text : String) : TrimsTo text (trim text) := by
  -- The blanks at the end are the first ones of the rest, read backwards.
  let rest := text.toList.dropWhile isBlank
  let kept := rest.reverse.dropWhile isBlank
  let after := (rest.reverse.takeWhile isBlank).reverse
  have hkept : (trim text).toList = kept.reverse := String.toList_ofList
  have hrest : rest = kept.reverse ++ after := by
    rw [← List.reverse_append, List.takeWhile_append_dropWhile, List.reverse_reverse]
  refine ⟨⟨text.toList.takeWhile isBlank, after, ?_, ?_, ?_⟩, ?_, ?_⟩
  · rw [hkept, List.append_assoc, ← hrest, List.takeWhile_append_dropWhile]
  · exact fun c hc => List.mem_takeWhile_imp hc
  · exact fun c hc => List.mem_takeWhile_imp (List.mem_reverse.mp hc)
  · intro c hc
    rw [hkept] at hc
    have hhead : c ∈ rest.head? := by
      rw [hrest, List.head?_append, hc]
      rfl
    exact not_isBlank_of_mem_head? hhead
  · intro c hc
    rw [hkept, List.getLast?_reverse] at hc
    exact not_isBlank_of_mem_head? hc

/-- A text is trimmed to what is left of it. -/
theorem trimsTo_iff {text inner : String} : TrimsTo text inner ↔ inner = trim text := by
  constructor
  · rintro ⟨⟨before, after, htext, hbefore, hafter⟩, hstart, hfinish⟩
    rw [trim, htext, trimmed_append hbefore hafter hstart hfinish, String.ofList_toList]
  · rintro rfl
    exact trimsTo_trim text

/-! ## Numbers and truth values -/

/-- The text is a number in decimal digits, with or without a plus sign in front, that fits into 64
bits. -/
def SpellsWord (text : String) (n : Nat) : Prop :=
  ∃ digits, (text.toList = digits ∨ text.toList = '+' :: digits) ∧ digits ≠ [] ∧
    (∀ c ∈ digits, c.isDigit) ∧
    n = Nat.ofDigits 10 (digits.reverse.map fun c => c.toNat - '0'.toNat) ∧ n < 2 ^ 64

/-- The text is the name of a truth value. -/
def SpellsTruth (text : String) (value : Bool) : Prop :=
  text = "true" ∧ value = true ∨ text = "false" ∧ value = false

/-- Digits are read as the number that has them, the last one for the units. -/
theorem digits?_eq_some_iff {cs : List Char} {n : Nat} : digits? cs = some n ↔
    cs ≠ [] ∧ (∀ c ∈ cs, c.isDigit) ∧
      n = Nat.ofDigits 10 (cs.reverse.map fun c => c.toNat - '0'.toNat) := by
  have hvalue : cs.foldl (fun n c => n * 10 + (c.toNat - '0'.toNat)) 0 =
      Nat.ofDigits 10 (cs.reverse.map fun c => c.toNat - '0'.toNat) := by
    rw [Nat.ofDigits_eq_foldr, List.foldr_map, List.foldr_reverse]
    simp only [Nat.cast_id, Nat.add_comm, Nat.mul_comm]
  rw [digits?, hvalue]
  split
  · next hnot =>
    simp only [reduceCtorEq, false_iff]
    rintro ⟨hne, hall, -⟩
    rw [List.all_eq_true.mpr hall, List.isEmpty_eq_false_iff.mpr hne] at hnot
    cases hnot
  · next hall =>
    rw [Bool.or_eq_true, not_or, Bool.not_eq_true', Bool.not_eq_false, List.all_eq_true,
      List.isEmpty_iff] at hall
    rw [Option.some_inj, and_iff_right hall.1, and_iff_right hall.2, eq_comm]

/-- Read as a number of 64 bits are the texts that spell it. -/
theorem unsigned?_eq_some_iff {text : String} {n : Nat} :
    unsigned? topWord text = some n ↔ SpellsWord text n := by
  have hbound : n ≤ topWord ↔ n < 2 ^ 64 := by rw [topWord]; omega
  have hsign : ¬ '+'.isDigit := by decide
  rw [unsigned?, Option.filter_eq_some_iff, decide_eq_true_iff, hbound, SpellsWord]
  constructor
  · rintro ⟨hdigits, hfits⟩
    split at hdigits
    · next digits htext =>
      obtain ⟨hne, hall, hvalue⟩ := digits?_eq_some_iff.mp hdigits
      exact ⟨digits, .inr htext, hne, hall, hvalue, hfits⟩
    · obtain ⟨hne, hall, hvalue⟩ := digits?_eq_some_iff.mp hdigits
      exact ⟨text.toList, .inl rfl, hne, hall, hvalue, hfits⟩
  · rintro ⟨digits, htext, hne, hall, hvalue, hfits⟩
    refine ⟨?_, hfits⟩
    have hdigits := digits?_eq_some_iff.mpr ⟨hne, hall, hvalue⟩
    rcases htext with htext | htext
    · split
      · next rest hplus =>
        -- A plus sign is no digit.
        have hmem : '+' ∈ digits := by rw [← htext, hplus]; exact List.mem_cons_self
        exact absurd (hall '+' hmem) hsign
      · rw [htext, hdigits]
    · rw [htext]
      exact hdigits

/-- Read as a truth value are the texts that spell it. -/
theorem truth?_eq_some_iff {text : String} {value : Bool} :
    truth? text = some value ↔ SpellsTruth text value := by
  rw [truth?, SpellsTruth]
  split_ifs with htrue hfalse
  · simp [htrue, eq_comm]
  · simp [hfalse, eq_comm]
  · simp [htrue, hfalse]

/-! ## Letters and their case -/

/-- The upper case of a character, by the numbers of the characters. -/
theorem toNat_toUpper (c : Char) :
    c.toUpper.toNat = if 97 ≤ c.toNat ∧ c.toNat ≤ 122 then c.toNat - 32 else c.toNat := by
  delta Char.toUpper
  split
  · next h =>
    have hletter : 97 ≤ c.toNat ∧ c.toNat ≤ 122 := h
    have hstep : ('A'.val - 'a'.val).toNat = 4294967264 := rfl
    rw [if_pos hletter, ← Char.toNat_val, UInt32.toNat_add, hstep, Char.toNat_val]
    omega
  · next h =>
    have hother : ¬(97 ≤ c.toNat ∧ c.toNat ≤ 122) := h
    rw [if_neg hother]

/-- The lower case of a character, by the numbers of the characters. -/
theorem toNat_toLower (c : Char) :
    c.toLower.toNat = if 65 ≤ c.toNat ∧ c.toNat ≤ 90 then c.toNat + 32 else c.toNat := by
  delta Char.toLower
  split
  · next h =>
    have hletter : 65 ≤ c.toNat ∧ c.toNat ≤ 90 := h
    have hstep : ('a'.val - 'A'.val).toNat = 32 := rfl
    rw [if_pos hletter, ← Char.toNat_val, UInt32.toNat_add, hstep, Char.toNat_val]
    omega
  · next h =>
    have hother : ¬(65 ≤ c.toNat ∧ c.toNat ≤ 90) := h
    rw [if_neg hother]

/-- A character in upper case is the upper case of those that are the same up to case. -/
theorem eq_toUpper_iff {a c : Char} (ha : a.toUpper = a) :
    a = c.toUpper ↔ c.toLower = a.toLower := by
  have hnumber := congrArg Char.toNat ha
  rw [← Char.toNat_inj, ← Char.toNat_inj]
  simp only [toNat_toUpper, toNat_toLower] at *
  split_ifs at * <;> omega

/-- A name in upper case is the upper case of all texts that are the name up to case. -/
theorem eq_map_toUpper_iff {name cs : List Char} (hname : name.map Char.toUpper = name) :
    name = cs.map Char.toUpper ↔ cs.map Char.toLower = name.map Char.toLower := by
  induction name generalizing cs with
  | nil => simp [eq_comm]
  | cons a name ih =>
    obtain ⟨ha, hrest⟩ := List.cons_eq_cons.mp hname
    cases cs with
    | nil => simp
    | cons c cs =>
      rw [List.map_cons, List.map_cons, List.map_cons, List.cons_eq_cons, List.cons_eq_cons,
        eq_toUpper_iff ha, ih hrest]

end Text

/-! ## Names of levels -/

namespace Level

/-- The text is the name of a built-in level, up to the case of ASCII letters. -/
def SpelledBy (text : String) (level : Level) : Prop :=
  level ∈ builtins ∧ text.toList.map Char.toLower = level.name.toList.map Char.toLower

/-- The names of the built-in levels are in upper case. -/
theorem map_toUpper_name {level : Level} (h : level ∈ builtins) :
    level.name.toList.map Char.toUpper = level.name.toList := by
  revert level
  decide

/-- Each name is that of one built-in level. -/
theorem eq_of_name_eq {level other : Level} (h : level ∈ builtins) (hother : other ∈ builtins)
    (hname : level.name = other.name) : level = other := by
  have hall : ∀ level ∈ builtins, ∀ other ∈ builtins, level.name = other.name → level = other := by
    decide
  exact hall level h other hother hname

/-- Read as a built-in level are the texts that, without the blanks around them, spell it. -/
theorem ofName?_eq_some_iff {text : String} {level : Level} :
    ofName? text = some level ↔ SpelledBy (Text.trim text) level := by
  have hspelled {other : Level} (h : other ∈ builtins) :
      other.name.toList = (Text.trimmed text.toList).map Char.toUpper ↔
        SpelledBy (Text.trim text) other := by
    rw [Text.eq_map_toUpper_iff (map_toUpper_name h), SpelledBy, and_iff_right h, Text.trim,
      String.toList_ofList]
  have hfound {other : Level} (h : ofName? text = some other) :
      other ∈ builtins ∧ other.name.toList = (Text.trimmed text.toList).map Char.toUpper := by
    rw [ofName?] at h
    exact ⟨List.mem_of_find?_eq_some h, by simpa using List.find?_some h⟩
  constructor
  · intro h
    obtain ⟨hmem, hname⟩ := hfound h
    exact (hspelled hmem).mp hname
  · intro hlevel
    have hname := (hspelled hlevel.1).mpr hlevel
    cases hother : ofName? text with
    | none => exact absurd (decide_eq_true hname) (List.find?_eq_none.mp hother level hlevel.1)
    | some other =>
      obtain ⟨hmem, hsame⟩ := hfound hother
      rw [eq_of_name_eq hmem hlevel.1 (String.toList_inj.mp (hsame.trans hname.symm))]

end Level

end EventSnapshot
