import EventSnapshot.Json.Parser
import EventSnapshot.Proofs.Json.Scaling

/-!
# Written numbers

The text of a number is a literal, and the literal is read as a number again: a whole number as
itself, a floating-point number as some floating-point number.
-/

namespace EventSnapshot.Json

namespace Number

/-! ## Literals -/

/-- The characters of the digits after the point. -/
def fractionChars : Option (List Char) → List Char
  | none => []
  | some digits => '.' :: digits

/-- The characters of an exponent, always with a sign. -/
def exponentChars : Option Int → List Char
  | none => []
  | some exponent =>
    'e' :: (if exponent < 0 then '-' else '+') :: Nat.toDigits 10 exponent.natAbs

namespace Literal

/-- The characters of a literal after its sign. -/
def unsigned (literal : Literal) : List Char :=
  literal.whole ++ fractionChars literal.fraction ++ exponentChars literal.exponent

/-- The characters of a literal. -/
def chars (literal : Literal) : List Char :=
  (if literal.negative then ['-'] else []) ++ literal.unsigned

/-- What makes the parts of a literal readable. -/
structure WellFormed (literal : Literal) : Prop where
  /-- There are digits before the point. -/
  whole_ne : literal.whole ≠ []
  /-- Only digits stand before the point. -/
  whole_digits : ∀ c ∈ literal.whole, c.isDigit
  /-- A zero at the front stands alone. -/
  zero_alone : literal.whole.head? = some '0' → literal.whole.length = 1
  /-- After a point there are digits. -/
  fraction_ne : ∀ digits ∈ literal.fraction, digits ≠ []
  /-- Only digits stand after the point. -/
  fraction_digits : ∀ digits ∈ literal.fraction, ∀ c ∈ digits, c.isDigit

end Literal

/-- The literal of the digits of a decimal with the point at its place. -/
def positionalLiteral (negative : Bool) (digits : List Char) (leading : Int) : Literal :=
  if leading < 0 then
    ⟨negative, ['0'], some (List.replicate (-leading - 1).toNat '0' ++ digits), none⟩
  else
    let places := leading.toNat + 1
    ⟨negative, digits.take places ++ List.replicate (places - digits.length) '0',
      some (if (digits.drop places).isEmpty then ['0'] else digits.drop places), none⟩

/-- The literal of the digits of a decimal with one digit before the point. -/
def exponentialLiteral (negative : Bool) (digits : List Char) (leading : Int) : Literal :=
  ⟨negative, digits.take 1, if (digits.drop 1).isEmpty then none else some (digits.drop 1),
    some leading⟩

/-- The literal of a decimal. -/
def decimalLiteral (negative : Bool) (decimal : Binary64.Decimal) : Literal :=
  let digits := Nat.toDigits 10 decimal.digits
  let leading := decimal.exponent + digits.length - 1
  if -5 ≤ leading ∧ leading < 16 then positionalLiteral negative digits leading
  else exponentialLiteral negative digits leading

/-- The literal that a number is written as. -/
def literal : Number → Literal
  | .natural n => ⟨false, Nat.toDigits 10 n.toNat, none, none⟩
  | .negative n => ⟨true, Nat.toDigits 10 (n.val + 1), none, none⟩
  | .real x =>
    if x.magnitude.val = 0 then ⟨x.negative, ['0'], some ['0'], none⟩
    else decimalLiteral x.negative (Binary64.shortest x.magnitude)

/-- The number that is read where a number was written. -/
def reread (n : Number) : Number := n.literal.value?.getD n

/-- The positional text of a decimal is that of its literal. -/
theorem chars_positionalLiteral (negative : Bool) (digits : List Char) (leading : Int) :
    (positionalLiteral negative digits leading).chars =
      (if negative then ['-'] else []) ++ positional digits leading := by
  unfold positional positionalLiteral
  split <;> simp [Literal.chars, Literal.unsigned, fractionChars, exponentChars]

/-- The exponential text of a decimal is that of its literal. -/
theorem chars_exponentialLiteral (negative : Bool) (digits : List Char) (leading : Int) :
    (exponentialLiteral negative digits leading).chars =
      (if negative then ['-'] else []) ++ exponential digits leading := by
  unfold exponential exponentialLiteral
  dsimp only
  split <;> simp [Literal.chars, Literal.unsigned, fractionChars, exponentChars]

/-- The text of a number is that of its literal. -/
theorem text_eq (n : Number) : n.text = n.literal.chars := by
  cases n with
  | natural n => simp [text, literal, Literal.chars, Literal.unsigned, fractionChars, exponentChars]
  | negative n =>
    simp [text, literal, Literal.chars, Literal.unsigned, fractionChars, exponentChars]
  | real x =>
    simp only [text, literal, realText, decimalLiteral]
    split
    · simp [Literal.chars, Literal.unsigned, fractionChars, exponentChars]
    · generalize Nat.toDigits 10 _ = digits
      generalize _ + (digits.length : Int) - 1 = leading
      by_cases hrange : -5 ≤ leading ∧ leading < 16
      · rw [if_pos hrange, if_pos hrange, chars_positionalLiteral]
      · rw [if_neg hrange, if_neg hrange, chars_exponentialLiteral]

/-! ## Reading the parts -/

/-- More digits make no smaller number. -/
theorem le_ofDigitChars (start : Nat) (cs : List Char) : start ≤ Nat.ofDigitChars 10 cs start := by
  rw [Nat.ofDigitChars_eq_ofDigitChars_zero]
  exact Nat.le_add_right_of_le (Nat.le_mul_of_pos_left _ (Nat.pow_pos (by decide)))

/-- Digits whose number fits are all gathered. -/
theorem gather_eq {significand : Nat} {cs : List Char}
    (h : Nat.ofDigitChars 10 cs significand < wordLimit) :
    gather significand cs = (Nat.ofDigitChars 10 cs significand, []) := by
  induction cs generalizing significand with
  | nil => simp [gather]
  | cons c cs ih =>
    rw [Nat.ofDigitChars_cons, Nat.mul_comm, ← digitValue] at h ⊢
    rw [gather, if_pos (Nat.lt_of_le_of_lt (le_ofDigitChars _ cs) h)]
    exact ih h

/-- The decimal that a literal stands for, all its digits counted in its last place. -/
def Literal.decimal (literal : Literal) : Binary64.Decimal :=
  ⟨Nat.ofDigitChars 10 (literal.whole ++ literal.fraction.getD []) 0,
    literal.exponent.getD 0 - (literal.fraction.getD []).length⟩

/-- A literal with a point or an exponent is read as its digits times a power of ten. -/
theorem value?_eq_scaled? {literal : Literal}
    (hreal : literal.fraction ≠ none ∨ literal.exponent ≠ none)
    (hfits : literal.decimal.digits < wordLimit) :
    literal.value? = (scaled? literal.decimal.digits literal.decimal.exponent).map
      fun x => .real ⟨literal.negative, x⟩ := by
  obtain ⟨negative, whole, fraction, exponent⟩ := literal
  unfold Literal.decimal at hfits ⊢
  dsimp only at hreal hfits ⊢
  rw [Nat.ofDigitChars_append] at hfits ⊢
  have hwhole : gather 0 whole = (Nat.ofDigitChars 10 whole 0, []) :=
    gather_eq (Nat.lt_of_le_of_lt (le_ofDigitChars _ _) hfits)
  unfold Literal.value?
  rw [hwhole]
  dsimp only
  split
  · simp at hreal
  · rw [gather_eq hfits]
    dsimp only
    congr 2
    simp
    omega

/-- A literal with a point or an exponent whose decimal is short and finite is read. -/
theorem exists_value? {literal : Literal}
    (hreal : literal.fraction ≠ none ∨ literal.exponent ≠ none)
    (hdigits : literal.decimal.digits ≤ topSignificand)
    (hvalue : literal.decimal.value ≤ Binary64.greatest) :
    ∃ n, literal.value? = some n := by
  have hfits : topSignificand < wordLimit := by
    rw [topSignificand, wordLimit]
    norm_num
  obtain ⟨x, hx⟩ := exists_scaled? hdigits hvalue
  rw [value?_eq_scaled? hreal (Nat.lt_of_le_of_lt hdigits hfits), hx, Option.map_some]
  exact ⟨_, rfl⟩

section Decimals

variable (negative : Bool) {decimal : Binary64.Decimal} {digits : List Char} {leading : Int}

/-- The exponential literal of a decimal stands for it. -/
theorem decimal_exponentialLiteral (hdigits : digits = Nat.toDigits 10 decimal.digits)
    (hleading : leading = decimal.exponent + digits.length - 1) :
    (exponentialLiteral negative digits leading).decimal = decimal := by
  have hfraction : (if (digits.drop 1).isEmpty then none else some (digits.drop 1)).getD [] =
      digits.drop 1 := by
    split
    · next hnone => rw [List.isEmpty_iff.mp hnone, Option.getD_none]
    · rfl
  have hpos : 0 < digits.length := hdigits ▸ Nat.length_toDigits_pos
  unfold exponentialLiteral Literal.decimal
  dsimp only
  rw [hfraction, List.take_append_drop, List.length_drop, Option.getD_some, hdigits,
    Nat.ofDigitChars_ten_toDigits, ← hdigits]
  congr 1
  omega

/-- Before the digits of a decimal below one, zeros on both sides of the point do not count. -/
theorem decimal_of_fraction (hnumber : Nat.ofDigitChars 10 digits 0 = decimal.digits) {zeros : Nat}
    (hexponent : decimal.exponent = -(zeros + digits.length : Nat)) :
    Literal.decimal ⟨negative, ['0'], some (List.replicate zeros '0' ++ digits), none⟩ =
      decimal := by
  unfold Literal.decimal
  simp only [Option.getD_some, Option.getD_none, List.length_append, List.length_replicate,
    Nat.ofDigitChars_append, Nat.ofDigitChars_replicate_zero, Nat.ofDigitChars_cons,
    Nat.ofDigitChars_nil, Nat.sub_self, Nat.mul_zero]
  congr 1
  omega

/-- A point between the digits of a decimal counts for its exponent. -/
theorem decimal_of_split (hnumber : Nat.ofDigitChars 10 digits 0 = decimal.digits) {places : Nat}
    (hplaces : places < digits.length) (hexponent : decimal.exponent = places - digits.length) :
    Literal.decimal ⟨negative, digits.take places ++ List.replicate (places - digits.length) '0',
      some (digits.drop places), none⟩ = decimal := by
  unfold Literal.decimal
  dsimp only
  rw [Nat.sub_eq_zero_of_le hplaces.le, List.replicate_zero, List.append_nil, Option.getD_some,
    List.take_append_drop, hnumber, List.length_drop, Option.getD_none]
  congr 1
  omega

/-- Zeros that fill the last places of a whole number, and the one after the point, count as
digits. -/
theorem decimal_of_whole (hnumber : Nat.ofDigitChars 10 digits 0 = decimal.digits) {places : Nat}
    (hplaces : digits.length ≤ places) :
    Literal.decimal ⟨negative, digits.take places ++ List.replicate (places - digits.length) '0',
      some ['0'], none⟩ = ⟨decimal.digits * 10 ^ (places - digits.length + 1), -1⟩ := by
  unfold Literal.decimal
  dsimp only
  rw [List.take_of_length_le hplaces, Option.getD_some, Nat.ofDigitChars_append,
    Nat.ofDigitChars_append, hnumber, Nat.ofDigitChars_replicate_zero, Nat.ofDigitChars_cons,
    Nat.ofDigitChars_nil, Nat.sub_self, Nat.add_zero, Option.getD_none]
  congr 1
  ring

/-- Zeros at the end of the digits count for the exponent. -/
theorem value_zeros_at_end (digits zeros : Nat) (exponent : Int) :
    Binary64.Decimal.value ⟨digits * 10 ^ zeros, exponent⟩ =
      Binary64.Decimal.value ⟨digits, zeros + exponent⟩ := by
  rw [Binary64.Decimal.value, Binary64.Decimal.value, zpow_add₀ (by norm_num), zpow_natCast]
  push_cast
  ring

/-- Up to 17 digits, zeros at the end included, are not above the bound of the significands. -/
theorem digits_mul_le_topSignificand (hdigits : digits = Nat.toDigits 10 decimal.digits)
    {zeros : Nat} (hlength : digits.length + zeros ≤ 17) :
    decimal.digits * 10 ^ zeros ≤ topSignificand := by
  have hpos : 0 < digits.length := hdigits ▸ Nat.length_toDigits_pos
  have hbound : decimal.digits < 10 ^ digits.length :=
    (Nat.length_toDigits_le_iff (by decide) hpos).mp (hdigits ▸ Nat.le_refl _)
  calc decimal.digits * 10 ^ zeros ≤ 10 ^ digits.length * 10 ^ zeros :=
        Nat.mul_le_mul_right _ hbound.le
    _ = 10 ^ (digits.length + zeros) := (Nat.pow_add ..).symm
    _ ≤ topSignificand := by
        rw [topSignificand]
        exact Nat.pow_le_pow_right (by decide) hlength

/-- The positional literal of a decimal has its value, and at most 17 digits if the decimal has. -/
theorem decimal_positionalLiteral (hdigits : digits = Nat.toDigits 10 decimal.digits)
    (hleading : leading = decimal.exponent + digits.length - 1) (hrange : leading < 16)
    (hshort : decimal.digits ≤ topSignificand) :
    (positionalLiteral negative digits leading).decimal.digits ≤ topSignificand ∧
      (positionalLiteral negative digits leading).decimal.value = decimal.value := by
  have hnumber : Nat.ofDigitChars 10 digits 0 = decimal.digits := by
    rw [hdigits, Nat.ofDigitChars_ten_toDigits]
  unfold positionalLiteral
  split
  · next hsmall =>
    rw [decimal_of_fraction negative hnumber (by omega)]
    exact ⟨hshort, rfl⟩
  · next hlarge =>
    dsimp only
    generalize hplaces : leading.toNat + 1 = places
    by_cases hdrop : digits.drop places = []
    · have hlength := List.drop_eq_nil_iff.mp hdrop
      have hexponent : decimal.exponent = (places - digits.length + 1 : Nat) + -1 := by omega
      rw [if_pos (by simpa using hdrop), decimal_of_whole negative hnumber hlength]
      refine ⟨digits_mul_le_topSignificand hdigits (by omega), ?_⟩
      rw [value_zeros_at_end, ← hexponent]
    · have hlength : places < digits.length := by
        simpa [List.drop_eq_nil_iff] using hdrop
      rw [if_neg (by simpa using hdrop), decimal_of_split negative hnumber hlength (by omega)]
      exact ⟨hshort, rfl⟩

/-- A decimal is written as digits, the first of them zero only if all is zero. -/
theorem toDigits_spec (n : Nat) : (∀ c ∈ Nat.toDigits 10 n, c.isDigit) ∧
    ((Nat.toDigits 10 n).head? = some '0' → n = 0) := by
  refine ⟨fun c hc => Nat.isDigit_of_mem_toDigits (by decide) (by decide) hc, fun hhead => ?_⟩
  by_contra hne
  exact Binary64.head?_toDigits_ne (Nat.pos_of_ne_zero hne) hhead

/-- The exponential literal of some digits is readable. -/
theorem wellFormed_exponentialLiteral (hne : digits ≠ []) (hall : ∀ c ∈ digits, c.isDigit) :
    (exponentialLiteral negative digits leading).WellFormed := by
  have hfraction : ∀ part ∈ (if (digits.drop 1).isEmpty then none else some (digits.drop 1)),
      part = digits.drop 1 ∧ part ≠ [] := by
    intro part hpart
    split at hpart
    · cases hpart
    · next hrest =>
      cases hpart
      exact ⟨rfl, by simpa using hrest⟩
  constructor
  · simpa [exponentialLiteral] using hne
  · exact fun c hc => hall c (List.mem_of_mem_take hc)
  · intro
    have hpos := List.length_pos_iff.mpr hne
    rw [exponentialLiteral, List.length_take]
    omega
  · exact fun part hpart => (hfraction part hpart).2
  · intro part hpart c hc
    rw [(hfraction part hpart).1] at hc
    exact hall c (List.mem_of_mem_drop hc)

/-- The positional literal of some digits is readable, if only a lone zero starts with a zero. -/
theorem wellFormed_positionalLiteral (hne : digits ≠ []) (hall : ∀ c ∈ digits, c.isDigit)
    (hzero : digits.head? = some '0' → digits = ['0'] ∧ leading = 0) :
    (positionalLiteral negative digits leading).WellFormed := by
  have hzeros (k : Nat) : ∀ c ∈ List.replicate k '0', c.isDigit := by
    intro c hc
    rw [List.eq_of_mem_replicate hc]
    rfl
  unfold positionalLiteral
  split
  · constructor
    · simp
    · simp
    · simp
    · simpa using fun _ => hne
    · simp only [Option.mem_def, Option.some.injEq, forall_eq', List.mem_append]
      exact fun c hc => hc.elim (hzeros _ c) (hall c)
  · constructor
    · simpa using fun h => absurd h hne
    · simp only [List.mem_append]
      exact fun c hc => hc.elim (fun h => hall c (List.mem_of_mem_take h)) (hzeros _ c)
    · intro hhead
      dsimp only at hhead ⊢
      rw [List.head?_append_of_ne_nil _ (by simpa using hne), List.head?_take,
        if_neg (Nat.succ_ne_zero _)] at hhead
      obtain ⟨rfl, rfl⟩ := hzero hhead
      rfl
    · simp only [Option.mem_def, Option.some.injEq, forall_eq']
      split
      · simp
      · next hrest => simpa using hrest
    · simp only [Option.mem_def, Option.some.injEq, forall_eq']
      split
      · simp
      · exact fun c hc => hall c (List.mem_of_mem_drop hc)

end Decimals

/-- The literal of a short and finite decimal is readable and stands for a number. -/
theorem decimalLiteral_spec (negative : Bool) {decimal : Binary64.Decimal}
    (hzero : decimal.digits = 0 → decimal.exponent = 0) (hshort : decimal.digits ≤ topSignificand)
    (hvalue : decimal.value ≤ Binary64.greatest) :
    (decimalLiteral negative decimal).WellFormed ∧
      ∃ n, (decimalLiteral negative decimal).value? = some n := by
  obtain ⟨hall, hhead⟩ := toDigits_spec decimal.digits
  have hne : Nat.toDigits 10 decimal.digits ≠ [] := Nat.toDigits_ne_nil
  unfold decimalLiteral
  dsimp only
  generalize hdigits : Nat.toDigits 10 decimal.digits = digits at *
  generalize hleading : decimal.exponent + (digits.length : Int) - 1 = leading at *
  split
  · next hrange =>
    obtain ⟨hfewer, hsame⟩ :=
      decimal_positionalLiteral negative hdigits.symm hleading.symm hrange.2 hshort
    constructor
    · apply wellFormed_positionalLiteral negative hne hall
      intro hfirst
      have hnone := hhead hfirst
      obtain rfl : digits = ['0'] := by rw [← hdigits, hnone, Nat.toDigits_zero]
      rw [← hleading, hzero hnone]
      exact ⟨rfl, rfl⟩
    · apply exists_value? _ hfewer (hsame.trans_le hvalue)
      left
      unfold positionalLiteral
      split <;> simp
  · have hsame := decimal_exponentialLiteral negative hdigits.symm hleading.symm
    constructor
    · exact wellFormed_exponentialLiteral negative hne hall
    · apply exists_value? (.inr (by simp [exponentialLiteral]))
      · rwa [hsame]
      · rwa [hsame]

/-- A whole number that fits is read as itself. -/
theorem value?_natural {digits : List Char} (hfits : Nat.ofDigitChars 10 digits 0 < wordLimit) :
    Literal.value? ⟨false, digits, none, none⟩ =
      some (.natural (UInt64.ofNat (Nat.ofDigitChars 10 digits 0))) := by
  simp [Literal.value?, gather_eq hfits]

/-- A negative whole number that fits is read as itself. -/
theorem value?_negative {digits : List Char} {n : Fin 9223372036854775808}
    (hdigits : Nat.ofDigitChars 10 digits 0 = n.val + 1) :
    Literal.value? ⟨true, digits, none, none⟩ = some (.negative n) := by
  have hfits : Nat.ofDigitChars 10 digits 0 < wordLimit := by
    rw [hdigits, wordLimit]
    omega
  have hrange : n.val + 1 ≤ 9223372036854775808 := n.isLt
  simp [Literal.value?, gather_eq hfits, hdigits, hrange]

/-- The literal of a number is readable and stands for a number: for itself if it is whole. -/
theorem literal_spec (n : Number) : n.literal.WellFormed ∧ n.literal.value? = some n.reread := by
  have hwhole (negative : Bool) (k : Nat) :
      Literal.WellFormed ⟨negative, Nat.toDigits 10 k, none, none⟩ := by
    obtain ⟨hall, hhead⟩ := toDigits_spec k
    refine ⟨Nat.toDigits_ne_nil, hall, fun h => ?_, by simp, by simp⟩
    dsimp only at h ⊢
    rw [hhead h, Nat.toDigits_zero]
    rfl
  suffices hsome : n.literal.WellFormed ∧ ∃ m, n.literal.value? = some m by
    obtain ⟨hwell, m, hm⟩ := hsome
    exact ⟨hwell, by rw [reread, hm, Option.getD_some]⟩
  cases n with
  | natural n =>
    refine ⟨hwhole .., _, value?_natural ?_⟩
    rw [Nat.ofDigitChars_ten_toDigits]
    exact n.toNat_lt
  | negative n => exact ⟨hwhole .., _, value?_negative Nat.ofDigitChars_ten_toDigits⟩
  | real x =>
    have hliteral : (real x).literal = decimalLiteral x.negative
        (if x.magnitude.val = 0 then ⟨0, 0⟩ else Binary64.shortest x.magnitude) := by
      rw [literal]
      split
      · simp [decimalLiteral, positionalLiteral]
      · rfl
    rw [hliteral]
    split
    · refine decimalLiteral_spec _ (fun _ => rfl) (Nat.zero_le _) ?_
      simpa [Binary64.Decimal.value] using Binary64.greatest_nonneg
    · next hne =>
      obtain ⟨hzero, hshort, hvalue⟩ :=
        Binary64.shortest_spec (Nat.pos_of_ne_zero hne) x.magnitude.isLt
      exact decimalLiteral_spec _ hzero (by rwa [topSignificand]) hvalue

/-- A natural number is read as itself. -/
@[simp]
theorem reread_natural (n : UInt64) : (natural n).reread = natural n := by
  have hfits : Nat.ofDigitChars 10 (Nat.toDigits 10 n.toNat) 0 < wordLimit := by
    rw [Nat.ofDigitChars_ten_toDigits]
    exact n.toNat_lt
  rw [reread, literal, value?_natural hfits, Nat.ofDigitChars_ten_toDigits, Option.getD_some,
    UInt64.ofNat_toNat]

/-- A negative whole number is read as itself. -/
@[simp]
theorem reread_negative (n : Fin 9223372036854775808) : (negative n).reread = negative n := by
  rw [reread, literal, value?_negative Nat.ofDigitChars_ten_toDigits, Option.getD_some]

end Number

/-! ## Scanning a literal -/

/-- No character of a number comes next. -/
def Ends (rest : List Char) : Prop :=
  ∀ c ∈ rest.head?, c.isDigit = false ∧ c ≠ '.' ∧ c ≠ 'e' ∧ c ≠ 'E'

/-- Digits are scanned up to what is no digit. -/
theorem scanDigits_append {digits rest : List Char} (hne : digits ≠ [])
    (hall : ∀ c ∈ digits, c.isDigit) (hrest : ∀ c ∈ rest.head?, c.isDigit = false) :
    scanDigits (digits ++ rest) = .ok (digits, rest) := by
  have hnone : rest.takeWhile Char.isDigit = [] ∧ rest.dropWhile Char.isDigit = rest := by
    cases rest with
    | nil => simp
    | cons c rest => simp [hrest c rfl]
  rw [scanDigits, List.takeWhile_append_of_pos hall, List.dropWhile_append_of_pos hall, hnone.1,
    hnone.2, List.append_nil]
  split
  · contradiction
  · rfl

/-- The digits before the point are scanned. -/
theorem scanWhole_append {digits rest : List Char} (hne : digits ≠ [])
    (hall : ∀ c ∈ digits, c.isDigit) (hzero : digits.head? = some '0' → digits.length = 1)
    (hrest : ∀ c ∈ rest.head?, c.isDigit = false) :
    scanWhole (digits ++ rest) = .ok (digits, rest) := by
  rw [scanWhole, scanDigits_append hne hall hrest]
  simp only [bind, Except.bind]
  rw [if_neg (by simpa using hzero)]

/-- A point and the digits after it are scanned. -/
theorem scanFraction_append {fraction : Option (List Char)} {rest : List Char}
    (hne : ∀ digits ∈ fraction, digits ≠ []) (hall : ∀ digits ∈ fraction, ∀ c ∈ digits, c.isDigit)
    (hrest : ∀ c ∈ rest.head?, c.isDigit = false ∧ c ≠ '.') :
    scanFraction (Number.fractionChars fraction ++ rest) = .ok (fraction, rest) := by
  cases fraction with
  | none =>
    cases rest with
    | nil => rfl
    | cons c rest =>
      rw [Number.fractionChars, List.nil_append, scanFraction]
      rintro _ ⟨rfl, -⟩
      exact (hrest _ rfl).2 rfl
  | some digits =>
    rw [Number.fractionChars, List.cons_append, scanFraction,
      scanDigits_append (hne digits rfl) (hall digits rfl) fun c hc => (hrest c hc).1]
    rfl

/-- The digits of a whole number have its value. -/
theorem digitsValue_toDigits (n : Nat) : digitsValue (Nat.toDigits 10 n) = n := by
  have heq : digitsValue (Nat.toDigits 10 n) = Nat.ofDigitChars 10 (Nat.toDigits 10 n) 0 := by
    rw [digitsValue, Nat.ofDigitChars_eq_foldl]
    congr 1
    funext sofar c
    rw [Nat.mul_comm, Number.digitValue]
  rw [heq, Nat.ofDigitChars_ten_toDigits]

/-- An exponent is scanned. -/
theorem scanExponent_append {exponent : Option Int} {rest : List Char} (hrest : Ends rest) :
    scanExponent (Number.exponentChars exponent ++ rest) = .ok (exponent, rest) := by
  cases exponent with
  | none =>
    cases rest with
    | nil => rfl
    | cons c rest =>
      obtain ⟨-, -, he, hE⟩ := hrest c rfl
      simp [Number.exponentChars, scanExponent, he, hE]
  | some exponent =>
    have hdigits := scanDigits_append (Nat.toDigits_ne_nil (n := exponent.natAbs) (b := 10))
      (Number.toDigits_spec _).1 fun c hc => (hrest c hc).1
    rw [Number.exponentChars]
    split
    · next hnegative =>
      simp [scanExponent, hdigits, bind, Except.bind, digitsValue_toDigits, -Nat.cast_natAbs]
      omega
    · next hpositive =>
      simp [scanExponent, hdigits, bind, Except.bind, digitsValue_toDigits, -Nat.cast_natAbs]
      omega

/-- A readable literal is scanned as the number that it stands for. -/
theorem scanNumber_unsigned {literal : Number.Literal} {rest : List Char} {n : Number}
    (hwell : literal.WellFormed) (hvalue : literal.value? = some n) (hrest : Ends rest) :
    scanNumber literal.negative (literal.unsigned ++ rest) = .ok (n, rest) := by
  have hexponent : ∀ c ∈ (Number.exponentChars literal.exponent ++ rest).head?,
      c.isDigit = false ∧ c ≠ '.' := by
    intro c hc
    cases hcase : literal.exponent with
    | none =>
      rw [hcase] at hc
      exact ⟨(hrest c hc).1, (hrest c hc).2.1⟩
    | some exponent =>
      rw [hcase] at hc
      cases hc
      decide
  have hfraction : ∀ c ∈ (Number.fractionChars literal.fraction ++
      (Number.exponentChars literal.exponent ++ rest)).head?, c.isDigit = false := by
    intro c hc
    cases hcase : literal.fraction with
    | none =>
      rw [hcase] at hc
      exact (hexponent c hc).1
    | some digits =>
      rw [hcase] at hc
      cases hc
      decide
  rw [scanNumber, Number.Literal.unsigned, List.append_assoc, List.append_assoc,
    scanWhole_append hwell.whole_ne hwell.whole_digits hwell.zero_alone hfraction]
  simp only [bind, Except.bind]
  rw [scanFraction_append hwell.fraction_ne hwell.fraction_digits hexponent]
  simp only [scanExponent_append hrest, hvalue]

end EventSnapshot.Json
