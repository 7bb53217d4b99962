import EventSnapshot.Wire.Codec
import Mathlib.Data.List.Forall2

/-!
# Readings with different resolvers

A level is rebuilt behind the whole record, and whatever the resolver answers, some level comes of
it. So two readers with different resolvers accept the same bytes, stop at the same places and fail
for the same reasons, and the events that they read differ in nothing but their levels.
-/

namespace EventSnapshot

/-- The events differ at most in their levels. -/
def Event.SameButLevel (event other : Event) : Prop := other = event.setLevel other.level

namespace Wire

/-- Two results are the same error, or values that are related. -/
inductive Alike {α : Type} (Related : α → α → Prop) :
    Except WireError α → Except WireError α → Prop
  /-- Both are one error. -/
  | error (error : WireError) : Alike Related (.error error) (.error error)
  /-- Both are values. -/
  | ok {value other : α} : Related value other → Alike Related (.ok value) (.ok other)

/-- What is made of related values by one function is related if the function keeps them so. -/
theorem Alike.map {α β : Type} {Related : α → α → Prop} {Kept : β → β → Prop}
    {result other : Except WireError α} (h : Alike Related result other) {f : α → β}
    (hkept : ∀ {value other : α}, Related value other → Kept (f value) (f other)) :
    Alike Kept (result.map f) (other.map f) := by
  cases h with
  | error error => exact .error error
  | ok h => exact .ok (hkept h)

/-- Two readings give events that differ at most in their levels, and stop at one place. -/
def SameReading (read other : Event × Nat) : Prop :=
  read.1.SameButLevel other.1 ∧ read.2 = other.2

variable {σ τ : Type} [Resolver σ] [Resolver τ]

/-- The events of a record differ at most in the levels that were rebuilt. -/
theorem sameButLevel_ofRecord (record : Record Value) (level other : Level) :
    (Event.ofRecord record level).SameButLevel (Event.ofRecord record other) := rfl

/-- A failed reading has asked the resolver nothing. -/
theorem readEvent_eq_of_error {producer : Producer} {source : σ} {bytes : ByteArray} {start : Nat}
    {error : WireError} (h : (readEvent producer source bytes start).value = .error error) :
    readEvent producer source bytes start = ⟨.error error, source, []⟩ := by
  unfold readEvent at h ⊢
  cases hrun : (readRecord producer).run bytes start with
  | error found =>
    rw [hrun] at h
    cases h
    rfl
  | ok read =>
    rw [hrun] at h
    cases h

variable (producer : Producer) (source : σ) (other : τ) (bytes : ByteArray)

/-- Whatever the resolvers, an event is read at a place up to its level, or not at all. -/
theorem readEvent_alike (start : Nat) :
    Alike SameReading (readEvent producer source bytes start).value
      (readEvent producer other bytes start).value := by
  unfold readEvent
  cases (readRecord producer).run bytes start with
  | error error => exact .error error
  | ok read => exact .ok ⟨sameButLevel_ofRecord read.1 _ _, rfl⟩

/-- Whatever the resolvers, bytes are decoded as one event up to its level, or not at all. -/
theorem decode_alike :
    Alike Event.SameButLevel (decode producer source bytes).value
      (decode producer other bytes).value :=
  (readEvent_alike producer source other bytes 0).map And.left

/-- Whatever the resolvers, bytes are decoded under either name as one event up to its level, or not
at all. -/
theorem decodeCompatible_alike :
    Alike Event.SameButLevel (decodeCompatible producer source bytes).value
      (decodeCompatible producer other bytes).value := by
  unfold decodeCompatible
  split
  · exact .error _
  · split
    · exact .error _
    · split
      · exact decode_alike producer source other bytes
      · split
        · exact .error _
        · next renamed _ => exact decode_alike producer source other renamed

/-- Whatever the resolvers, a stream is read as the same events up to their levels, equally far. -/
theorem readEvents_alike (fuel : Nat) (start : Nat) :
    let mine := (readEvents producer bytes fuel source start).value
    let theirs := (readEvents producer bytes fuel other start).value
    List.Forall₂ SameReading mine.1 theirs.1 ∧ mine.2 = theirs.2 := by
  -- Each reading may change its resolver, so the induction is for all of them.
  induction fuel generalizing source other start with
  | zero => exact ⟨.nil, rfl⟩
  | succ fuel ih =>
    simp only [readEvents]
    by_cases hend : bytes.size ≤ start
    · rw [if_pos hend, if_pos hend]
      exact ⟨.nil, rfl⟩
    · rw [if_neg hend, if_neg hend]
      have hread := readEvent_alike producer source other bytes start
      generalize readEvent producer source bytes start = mine at hread ⊢
      generalize readEvent producer other bytes start = theirs at hread ⊢
      obtain ⟨_, source, _⟩ := mine
      obtain ⟨_, other, _⟩ := theirs
      dsimp only at hread ⊢
      cases hread with
      | error error => exact ⟨.nil, rfl⟩
      | @ok first second h =>
        obtain ⟨event, finish⟩ := first
        obtain ⟨event', finish'⟩ := second
        obtain rfl : finish = finish' := h.2
        obtain ⟨hmore, herror⟩ := ih source other finish
        exact ⟨.cons h hmore, herror⟩

/-- The resolver shows in nothing that is read but the level. Whatever it is and whatever it
answers, the same bytes are read, under one name or under either, at any place or as a stream, as
the same events up to their levels, with the same ends and the same errors; and where nothing is
read, the resolver has not been asked. -/
theorem readings_alike :
    Alike Event.SameButLevel (decode producer source bytes).value
        (decode producer other bytes).value ∧
      Alike Event.SameButLevel (decodeCompatible producer source bytes).value
        (decodeCompatible producer other bytes).value ∧
      (∀ start, Alike SameReading (readEvent producer source bytes start).value
        (readEvent producer other bytes start).value) ∧
      (∀ fuel start,
        let mine := (readEvents producer bytes fuel source start).value
        let theirs := (readEvents producer bytes fuel other start).value
        List.Forall₂ SameReading mine.1 theirs.1 ∧ mine.2 = theirs.2) ∧
      ∀ start error, (readEvent producer source bytes start).value = .error error →
        readEvent producer source bytes start = ⟨.error error, source, []⟩ :=
  ⟨decode_alike producer source other bytes, decodeCompatible_alike producer source other bytes,
    readEvent_alike producer source other bytes, readEvents_alike producer source other bytes,
    fun _ _ => readEvent_eq_of_error⟩

end Wire

end EventSnapshot
