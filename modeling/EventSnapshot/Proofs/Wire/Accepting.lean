import EventSnapshot.Proofs.Wire.BigEndian
import EventSnapshot.Wire.Reader
import Mathlib.Data.List.Forall2

/-!
# What readers accept

A reader accepts some bytes as a value if it takes all of them and then gives that value. A run
succeeds exactly on the stretch of bytes that the reader accepts, so acceptance settles both what is
read and where the reading stops. Each combinator has one statement about acceptance; a reader is
then understood from its parts, and no run is looked at again.
-/

namespace EventSnapshot.Wire

/-- Some byte strings, one after the other. -/
def joined (parts : List ByteArray) : ByteArray := parts.foldr (· ++ ·) .empty

@[simp] theorem joined_nil : joined [] = .empty := rfl

@[simp] theorem joined_cons (part : ByteArray) (parts : List ByteArray) :
    joined (part :: parts) = part ++ joined parts := rfl

/-- Byte strings and others after them are joined one after the other. -/
theorem joined_append (parts others : List ByteArray) :
    joined (parts ++ others) = joined parts ++ joined others := by
  induction parts with
  | nil => exact ByteArray.empty_append.symm
  | cons part parts ih =>
    rw [List.cons_append, joined_cons, joined_cons, ih, ByteArray.append_assoc]

/-- A stretch of bytes that falls into two parts falls into them behind the first one's size. -/
theorem extract_eq_append {bytes front rest : ByteArray} {start finish : Nat}
    (hle : start ≤ finish) (hfinish : finish ≤ bytes.size)
    (h : bytes.extract start finish = front ++ rest) :
    start + front.size ≤ finish ∧ bytes.extract start (start + front.size) = front ∧
      bytes.extract (start + front.size) finish = rest := by
  have htotal := congrArg ByteArray.size h
  rw [ByteArray.size_extract, ByteArray.size_append] at htotal
  have hmiddle : start + front.size ≤ finish := by omega
  have hsplit := ByteArray.extract_eq_extract_append_extract (a := bytes) (start + front.size)
    (Nat.le_add_right ..) hmiddle
  rw [h] at hsplit
  have hfront : front = bytes.extract start (start + front.size) := by
    apply ByteArray.append_inj_left hsplit
    rw [ByteArray.size_extract]
    omega
  rw [← hfront, ByteArray.append_right_inj] at hsplit
  exact ⟨hmiddle, hfront.symm, hsplit.symm⟩

namespace Reader

variable {α β τ : Type}

/-- The reader takes all of the bytes, and no more, and gives the value. -/
def Accepts : Reader α → ByteArray → α → Prop
  | .done result, bytes, value => bytes = .empty ∧ result = value
  | .fail _, _, _ => False
  | .take count next, bytes, value =>
    ∃ front rest, bytes = front ++ rest ∧ front.size = count ∧ (next front).Accepts rest value

/-- A run succeeds exactly when the reader accepts the bytes between start and finish. -/
theorem run_eq_ok_iff {reader : Reader α} {bytes : ByteArray} {start finish : Nat} {value : α}
    (hstart : start ≤ bytes.size) :
    reader.run bytes start = .ok (value, finish) ↔
      start ≤ finish ∧ finish ≤ bytes.size ∧
        reader.Accepts (bytes.extract start finish) value := by
  induction reader generalizing start with
  | done result =>
    simp only [run, Accepts, Except.ok.injEq, Prod.mk.injEq, ByteArray.extract_eq_empty_iff]
    constructor
    · rintro ⟨rfl, rfl⟩
      exact ⟨Nat.le_refl _, hstart, by omega, rfl⟩
    · rintro ⟨hle, hfinish, hempty, rfl⟩
      exact ⟨rfl, by omega⟩
  | fail error => simp [run, Accepts]
  | take count next ih =>
    rw [run]
    constructor
    · intro h
      split at h
      · next hfits =>
        obtain ⟨hle, hfinish, haccepts⟩ := (ih _ hfits).mp h
        refine ⟨by omega, hfinish, _, _, ?_, ?_, haccepts⟩
        · rw [← ByteArray.extract_eq_extract_append_extract _ (by omega) (by omega)]
        · rw [ByteArray.size_extract]
          omega
      · cases h
    · rintro ⟨hle, hfinish, front, rest, hsplit, rfl, haccepts⟩
      obtain ⟨hmiddle, hfront, hrest⟩ := extract_eq_append hle hfinish hsplit
      rw [if_pos (by omega), hfront]
      exact (ih _ (by omega)).mpr ⟨hmiddle, hfinish, hrest ▸ haccepts⟩

/-- A reader accepts one start of some bytes at most, as one value. -/
theorem Accepts.eq_of_append_eq {reader : Reader α} {value other : α}
    {front rest start others : ByteArray} (h : reader.Accepts front value)
    (hother : reader.Accepts start other) (hbytes : front ++ rest = start ++ others) :
    front = start ∧ value = other := by
  have hrun {front rest : ByteArray} {value : α} (h : reader.Accepts front value) :
      reader.run (front ++ rest) 0 = .ok (value, front.size) := by
    apply (run_eq_ok_iff (Nat.zero_le _)).mpr
    refine ⟨Nat.zero_le _, by rw [ByteArray.size_append]; omega, ?_⟩
    rw [ByteArray.extract_append_eq_left rfl]
    exact h
  have hsame := (hrun h).symm.trans (hbytes ▸ hrun hother)
  simp only [Except.ok.injEq, Prod.mk.injEq] at hsame
  exact ⟨ByteArray.append_inj_left hbytes hsame.2, hsame.1⟩

@[simp] theorem accepts_pure {result value : α} {bytes : ByteArray} :
    (pure result : Reader α).Accepts bytes value ↔ bytes = .empty ∧ result = value := Iff.rfl

@[simp] theorem accepts_done {result value : α} {bytes : ByteArray} :
    (Reader.done result).Accepts bytes value ↔ bytes = .empty ∧ result = value := Iff.rfl

@[simp] theorem accepts_fail {error : WireError} {value : α} {bytes : ByteArray} :
    (Reader.fail error).Accepts bytes value ↔ False := Iff.rfl

/-- A check that comes before a reader has to be passed. -/
@[simp] theorem accepts_ite_fail {c : Prop} [Decidable c] {error : WireError} {reader : Reader α}
    {bytes : ByteArray} {value : α} :
    (if c then .fail error else reader : Reader α).Accepts bytes value ↔
      ¬c ∧ reader.Accepts bytes value := by
  split <;> simp [*]

/-- Two readers in sequence accept what the first accepts followed by what the second does. -/
theorem accepts_bind {first : Reader α} {next : α → Reader β} {bytes : ByteArray} {value : β} :
    (first >>= next).Accepts bytes value ↔
      ∃ front rest middle, bytes = front ++ rest ∧ first.Accepts front middle ∧
        (next middle).Accepts rest value := by
  change (first.bind next).Accepts bytes value ↔ _
  induction first generalizing bytes with
  | done result =>
    simp only [bind, Accepts]
    constructor
    · intro h
      exact ⟨.empty, bytes, result, by simp, ⟨rfl, rfl⟩, h⟩
    · rintro ⟨front, rest, middle, rfl, ⟨rfl, rfl⟩, h⟩
      simpa using h
  | fail error => simp [bind, Accepts]
  | take count rest ih =>
    simp only [bind, Accepts, ih]
    constructor
    · rintro ⟨taken, others, rfl, hsize, front, last, middle, rfl, hfront, hlast⟩
      exact ⟨taken ++ front, last, middle, ByteArray.append_assoc.symm,
        ⟨taken, front, rfl, hsize, hfront⟩, hlast⟩
    · rintro ⟨_, last, middle, rfl, ⟨taken, front, rfl, hsize, hfront⟩, hlast⟩
      exact ⟨taken, front ++ last, ByteArray.append_assoc, hsize, front, last, middle, rfl,
        hfront, hlast⟩

/-- After a reader whose values have certain forms, a sequence goes on behind one of these forms. -/
theorem accepts_bind_forms {first : Reader α} {Form : τ → α → Prop} {layout : τ → ByteArray}
    (hfirst : ∀ bytes value,
      first.Accepts bytes value ↔ ∃ form, Form form value ∧ bytes = layout form)
    {next : α → Reader β} {bytes : ByteArray} {value : β} :
    (first >>= next).Accepts bytes value ↔
      ∃ form rest middle, bytes = layout form ++ rest ∧ Form form middle ∧
        (next middle).Accepts rest value := by
  simp only [accepts_bind, hfirst]
  constructor
  · rintro ⟨_, rest, middle, rfl, ⟨form, hform, rfl⟩, h⟩
    exact ⟨form, rest, middle, rfl, hform, h⟩
  · rintro ⟨form, rest, middle, rfl, hform, h⟩
    exact ⟨_, rest, middle, rfl, ⟨form, hform, rfl⟩, h⟩

/-- After a reader whose values have one form each, a sequence goes on behind that form. -/
theorem accepts_bind_layout {first : Reader α} {P : α → Prop} {layout : α → ByteArray}
    (hfirst : ∀ bytes value, first.Accepts bytes value ↔ P value ∧ bytes = layout value)
    {next : α → Reader β} {bytes : ByteArray} {value : β} :
    (first >>= next).Accepts bytes value ↔
      ∃ middle rest, bytes = layout middle ++ rest ∧ P middle ∧
        (next middle).Accepts rest value := by
  simp only [accepts_bind, hfirst]
  constructor
  · rintro ⟨_, rest, middle, rfl, ⟨hmiddle, rfl⟩, h⟩
    exact ⟨middle, rest, rfl, hmiddle, h⟩
  · rintro ⟨middle, rest, rfl, hmiddle, h⟩
    exact ⟨_, rest, middle, rfl, ⟨hmiddle, rfl⟩, h⟩

/-- A mapped reader accepts what the reader does. -/
theorem accepts_map {reader : Reader α} {f : α → β} {bytes : ByteArray} {value : β} :
    (f <$> reader).Accepts bytes value ↔
      ∃ result, reader.Accepts bytes result ∧ f result = value := by
  change (reader >>= fun result => pure (f result)).Accepts bytes value ↔ _
  simp only [accepts_bind, accepts_pure]
  constructor
  · rintro ⟨front, rest, result, rfl, hfront, rfl, rfl⟩
    exact ⟨result, by simpa using hfront, rfl⟩
  · rintro ⟨result, hresult, rfl⟩
    exact ⟨bytes, .empty, result, by simp, hresult, rfl, rfl⟩

@[simp] theorem accepts_ofExcept {result : Except WireError α} {bytes : ByteArray} {value : α} :
    (ofExcept result).Accepts bytes value ↔ bytes = .empty ∧ result = .ok value := by
  cases result <;> simp [ofExcept]

@[simp] theorem accepts_bytes {count : Nat} {bytes value : ByteArray} :
    (Reader.bytes count).Accepts bytes value ↔ bytes.size = count ∧ bytes = value := by
  constructor
  · rintro ⟨front, rest, rfl, hsize, rfl, rfl⟩
    simpa using hsize
  · rintro ⟨hsize, rfl⟩
    exact ⟨bytes, .empty, by simp, hsize, rfl, rfl⟩

/-- A number is accepted in the one form that has its width. -/
@[simp] theorem accepts_number {width : Nat} (bytes : ByteArray) (n : Nat) :
    (Reader.number width).Accepts bytes n ↔ n < 256 ^ width ∧ bytes = bigEndian width n := by
  constructor
  · rintro ⟨front, rest, rfl, rfl, rfl, rfl⟩
    simpa using ⟨ofBigEndian_lt front, (bigEndian_ofBigEndian front).symm⟩
  · rintro ⟨hlt, rfl⟩
    exact ⟨bigEndian width n, .empty, by simp, size_bigEndian .., rfl, ofBigEndian_bigEndian hlt⟩

/-- If the values that a reader gives have certain forms, then repeating the reader accepts the
forms of that many values one after the other. -/
theorem accepts_times {reader : Reader α} {Form : τ → α → Prop} {layout : τ → ByteArray}
    (hreader : ∀ bytes value,
      reader.Accepts bytes value ↔ ∃ form, Form form value ∧ bytes = layout form)
    {count : Nat} {bytes : ByteArray} {values : List α} :
    (times count reader).Accepts bytes values ↔
      ∃ forms, List.Forall₂ Form forms values ∧ forms.length = count ∧
        bytes = joined (forms.map layout) := by
  -- The values read before are kept in reverse, so the induction is on the count for all of them.
  suffices hafter : ∀ before, (timesAfter reader count before).Accepts bytes values ↔
      ∃ forms later, values = before.reverse ++ later ∧ List.Forall₂ Form forms later ∧
        forms.length = count ∧ bytes = joined (forms.map layout) by
    simpa [times] using hafter []
  induction count generalizing bytes with
  | zero =>
    intro before
    simp only [timesAfter, accepts_done, List.length_eq_zero_iff]
    constructor
    · rintro ⟨rfl, rfl⟩
      exact ⟨[], [], by simp, .nil, rfl, rfl⟩
    · rintro ⟨forms, later, rfl, hforms, rfl, rfl⟩
      cases hforms
      simp
  | succ count ih =>
    intro before
    change (reader >>= fun value => timesAfter reader count (value :: before)).Accepts _ _ ↔ _
    simp only [accepts_bind, hreader, ih]
    constructor
    · rintro ⟨_, _, value, rfl, ⟨form, hform, rfl⟩, forms, later, rfl, hforms, rfl, rfl⟩
      exact ⟨form :: forms, value :: later, by simp, .cons hform hforms, rfl, rfl⟩
    · rintro ⟨forms, later, rfl, hforms, hlength, rfl⟩
      cases hforms with
      | nil => cases hlength
      | @cons form value forms later hform hforms =>
        exact ⟨layout form, joined (forms.map layout), value, rfl, ⟨form, hform, rfl⟩, forms,
          later, by simp, hforms, by simpa using hlength, rfl⟩

end Reader

end EventSnapshot.Wire
