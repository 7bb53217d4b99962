import EventSnapshot.Bridge.Emission
import EventSnapshot.Proofs.SortedMap

/-!
# What is gathered from the fields of an emission

A field is either the message or a value of the mapped context. A text, or a value that is known by
its diagnostic form, is the message if its name says so. A number or a truth value is never looked
at for its name: it is put into the map even where it is given as the message, and the message stays
as it was. All other entries of the map are what they were, overlaid with the other fields.
-/

namespace EventSnapshot

namespace FieldValue

/-- The text of a value that can be the message: a text, or a diagnostic form. -/
def text? : FieldValue → Option String
  | .text s => some s
  | .shown form => some form
  | _ => none

/-- What a value is in the mapped context. -/
def value : FieldValue → Value
  | .text s => .ofString s
  | .shown form => .ofString form
  | .int n => .ofNumber (.ofInt64 n)
  | .natural n => .ofNumber (.natural n)
  | .float bits => .ofFloatBits bits
  | .bool b => .ofBool b

end FieldValue

/-- The texts of the fields that hold the message, the first first. -/
def messageTexts (fields : List (String × FieldValue)) : List String :=
  (fields.filter (·.1 = messageField)).filterMap (·.2.text?)

/-- The values of the other fields by name, the first first. -/
def contextValues (fields : List (String × FieldValue)) : List (String × Value) :=
  (fields.filter (·.1 ≠ messageField)).map fun field => (field.1, field.2.value)

/-- The numbers and truth values that are given as the message, the first first. -/
def messageValues (fields : List (String × FieldValue)) : List Value :=
  (fields.filter fun field => field.1 = messageField ∧ field.2.text? = none).map (·.2.value)

/-- The values that are put into the map by name, the first first: all but the texts that hold the
message. -/
def enteredValues (fields : List (String × FieldValue)) : List (String × Value) :=
  (fields.filter fun field => field.1 = messageField → field.2.text? = none).map
    fun field => (field.1, field.2.value)

/-- The message is given as a text or by its diagnostic form, whenever it is given. -/
def MessagesAreTexts (fields : List (String × FieldValue)) : Prop :=
  ∀ field ∈ fields, field.1 = messageField → field.2.text?.isSome

section Values

variable {fields : List (String × FieldValue)}

/-- Apart from the message, the values that are put into the map are those of the other fields. -/
theorem contextValues_eq_eraseEntry (fields : List (String × FieldValue)) :
    contextValues fields = eraseEntry messageField (enteredValues fields) := by
  rw [contextValues, enteredValues, eraseEntry, List.filter_map, List.filter_filter]
  congr 1
  apply List.filter_congr
  intro field _
  by_cases hname : field.1 = messageField
  · simp [hname]
  · simp [hname]

/-- The values that are put into the map as the message are the numbers and truth values. -/
theorem messageValues_eq_filter (fields : List (String × FieldValue)) :
    messageValues fields =
      ((enteredValues fields).filter (·.1 = messageField)).map (·.2) := by
  rw [messageValues, enteredValues, List.filter_map, List.filter_filter, List.map_map]
  congr 1
  apply List.filter_congr
  intro field _
  by_cases hname : field.1 = messageField
  · simp [hname]
  · simp [hname]

/-- Nothing is put into the map as the message exactly if each message is a text. -/
theorem messageValues_eq_nil_iff : messageValues fields = [] ↔ MessagesAreTexts fields := by
  simp only [messageValues, MessagesAreTexts, List.map_eq_nil_iff, List.filter_eq_nil_iff,
    decide_eq_true_eq, not_and, Option.isSome_iff_ne_none, ne_eq]

/-- For any other name, the last value that is put into the map is the last of the other fields. -/
theorem lookup_enteredValues_of_ne {key : String} (h : key ≠ messageField) :
    (enteredValues fields).reverse.lookup key = (contextValues fields).reverse.lookup key := by
  have herase : (contextValues fields).reverse =
      eraseEntry messageField (enteredValues fields).reverse := by
    rw [contextValues_eq_eraseEntry, eraseEntry, eraseEntry, List.filter_reverse]
  rw [herase, lookup_eraseEntry, if_neg h]

/-- As the message, the last value that is put into the map is the last number or truth value. -/
theorem lookup_enteredValues_messageField :
    (enteredValues fields).reverse.lookup messageField = (messageValues fields).getLast? := by
  rw [lookup_eq_head?, messageValues_eq_filter, List.filter_reverse, List.map_reverse,
    List.head?_reverse]

end Values

namespace Gathered

variable {fields : List (String × FieldValue)}

/-- A text that holds the message replaces the message. -/
theorem record_of_text {value : FieldValue} {text : String} (h : value.text? = some text)
    (gathered : Gathered) :
    gathered.record messageField value = { gathered with message := some text } := by
  cases value with
  | text s =>
    cases h
    rfl
  | shown form =>
    cases h
    rfl
  | int | natural | float | bool => cases h

/-- Any other field replaces the value of its name. -/
theorem record_of_enters {name : String} {value : FieldValue}
    (h : name = messageField → value.text? = none) (gathered : Gathered) :
    gathered.record name value =
      { gathered with values := gathered.values.insert name value.value } := by
  have hname {text : String} (htext : value.text? = some text) : name ≠ messageField := by
    intro hname
    rw [h hname] at htext
    cases htext
  cases value with
  | text s => simp [record, recordText, hname rfl, FieldValue.value]
  | shown form => simp [record, recordText, hname rfl, FieldValue.value]
  | int | natural | float | bool => rfl

/-- Of the texts that hold the message the last one counts, and the other values are put in one
after the other. -/
theorem recordAll_eq_foldl (fields : List (String × FieldValue)) (gathered : Gathered) :
    gathered.recordAll fields =
      ⟨(enteredValues fields).foldl (fun map entry => map.insert entry.1 entry.2) gathered.values,
        (messageTexts fields).getLast?.or gathered.message⟩ := by
  induction fields generalizing gathered with
  | nil => rfl
  | cons field fields ih =>
    obtain ⟨name, value⟩ := field
    rw [recordAll, List.foldl_cons, ← recordAll, ih]
    by_cases henters : name = messageField → value.text? = none
    · have hmessages : messageTexts ((name, value) :: fields) = messageTexts fields := by
        by_cases hname : name = messageField
        · simp [messageTexts, hname, henters hname]
        · simp [messageTexts, hname]
      have hvalues : enteredValues ((name, value) :: fields) =
          (name, value.value) :: enteredValues fields := by
        rw [enteredValues, List.filter_cons_of_pos (by simpa [imp_iff_not_or] using henters),
          List.map_cons, ← enteredValues]
      rw [record_of_enters henters, hmessages, hvalues, List.foldl_cons]
    · obtain ⟨rfl, hsome⟩ := Classical.not_imp.mp henters
      obtain ⟨text, htext⟩ := Option.ne_none_iff_exists'.mp hsome
      have hmessages : messageTexts ((messageField, value) :: fields) =
          text :: messageTexts fields := by
        simp [messageTexts, htext]
      have hvalues : enteredValues ((messageField, value) :: fields) = enteredValues fields := by
        rw [enteredValues, List.filter_cons_of_neg (by simpa using henters), ← enteredValues]
      rw [record_of_text htext, hmessages, hvalues, List.getLast?_cons]
      cases (messageTexts fields).getLast? <;> rfl

/-- Of the messages the last one counts, and the other values are put in one after the other. -/
theorem recordAll_eq (h : MessagesAreTexts fields) (gathered : Gathered) :
    gathered.recordAll fields =
      ⟨(contextValues fields).foldl (fun map entry => map.insert entry.1 entry.2) gathered.values,
        (messageTexts fields).getLast?.or gathered.message⟩ := by
  have hvalues : enteredValues fields = contextValues fields := by
    rw [enteredValues, contextValues]
    congr 1
    apply List.filter_congr
    intro field hfield
    by_cases hname : field.1 = messageField
    · simp [hname, Option.isSome_iff_ne_none.mp (h field hfield hname)]
    · simp [hname]
  rw [recordAll_eq_foldl, hvalues]

/-- What has become of what was gathered before, when more fields are gathered. -/
structure Collects (before : Gathered) (fields : List (String × FieldValue)) (after : Gathered) :
    Prop where
  /-- The message is the last text that is given as the message. -/
  message_eq : after.message = (messageTexts fields).getLast?.or before.message
  /-- The map is overlaid with the other fields. Of equal names the last counts. -/
  get?_of_ne : ∀ key, key ≠ messageField → after.values.get? key =
    ((contextValues fields).reverse.lookup key).or (before.values.get? key)
  /-- As the message, the map has the last number or truth value that is given as the message. -/
  get?_messageField : after.values.get? messageField =
    (messageValues fields).getLast?.or (before.values.get? messageField)
  /-- The message is kept apart from the map where it is a text whenever it is given. -/
  apart : MessagesAreTexts fields →
    after.values.get? messageField = before.values.get? messageField

/-- Texts that are given as the message are kept apart, and every other field is put into the map,
whatever has been gathered before. -/
theorem collects (gathered : Gathered) (fields : List (String × FieldValue)) :
    gathered.Collects fields (gathered.recordAll fields) := by
  rw [recordAll_eq_foldl]
  constructor
  · rfl
  · intro key hkey
    rw [SortedMap.get?_foldl_insert, lookup_enteredValues_of_ne hkey]
  · rw [SortedMap.get?_foldl_insert, lookup_enteredValues_messageField]
  · intro htexts
    rw [SortedMap.get?_foldl_insert, lookup_enteredValues_messageField,
      messageValues_eq_nil_iff.mpr htexts, List.getLast?_nil, Option.none_or]

/-- A number that is given as the message is not kept apart: it is put into the map, and there is
no message. -/
theorem not_apart_of_number :
    let gathered := recordAll ⟨.empty, none⟩ [(messageField, .int 5)]
    gathered.message = none ∧
      gathered.values.get? messageField = some (.ofNumber (.ofInt64 5)) :=
  ⟨rfl, rfl⟩

end Gathered

end EventSnapshot
