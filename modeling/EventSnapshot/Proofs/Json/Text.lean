import EventSnapshot.Json.Printer

/-!
# The text of values

The text of a value as a list of characters, by recursion on the tree alone: the writer appends
these characters to what it was given.
-/

namespace EventSnapshot.Json

/-- The characters of a text as a JSON string. -/
def stringChars (text : String) : List Char :=
  '"' :: (text.toList.flatMap (fun c => (escaped c).toList) ++ ['"'])

/-- Some texts with a comma before each but the `first` of the list. -/
def commas (first : Bool) : List (List Char) → List Char
  | [] => []
  | text :: texts => (if first then [] else [',']) ++ text ++ commas false texts

mutual

/-- The characters of a value. -/
def chars : Json → List Char
  | .null => ['n', 'u', 'l', 'l']
  | .bool true => ['t', 'r', 'u', 'e']
  | .bool false => ['f', 'a', 'l', 's', 'e']
  | .number n => n.text
  | .string s => stringChars s
  | .array items => '[' :: (commas true (itemChars items) ++ [']'])
  | .object members => '\x7b' :: (commas true (memberChars members) ++ ['\x7d'])

/-- The characters of each item. -/
def itemChars : List Json → List (List Char)
  | [] => []
  | item :: items => chars item :: itemChars items

/-- The characters of each member. -/
def memberChars : List (String × Json) → List (List Char)
  | [] => []
  | (key, value) :: members => (stringChars key ++ ':' :: chars value) :: memberChars members

end

/-- The characters of a member. -/
def memberText (member : String × Json) : List Char :=
  stringChars member.1 ++ ':' :: chars member.2

/-- The items are spelled one by one. -/
theorem itemChars_eq_map (items : List Json) : itemChars items = items.map chars := by
  induction items with
  | nil => rfl
  | cons item items ih => rw [itemChars, ih, List.map_cons]

/-- The members are spelled one by one. -/
theorem memberChars_eq_map (members : List (String × Json)) :
    memberChars members = members.map memberText := by
  induction members with
  | nil => rfl
  | cons member members ih => rw [memberChars, ih, List.map_cons, memberText]

/-- A character that stands for itself is spelled as itself. -/
theorem escaped_of_isPlain {c : Char} (h : isPlain c) : escaped c = c.toString := by
  simp only [isPlain, Bool.and_eq_true, decide_eq_true_eq] at h
  obtain ⟨⟨hprint, hquote⟩, hback⟩ := h
  have hcontrol (other : Char) (hother : other.toNat < 0x20) : c ≠ other := by
    rintro rfl
    omega
  simp [escaped, hquote, hback, hcontrol '\x08' (by decide), hcontrol '\x0c' (by decide),
    hcontrol '\n' (by decide), hcontrol '\r' (by decide), hcontrol '\t' (by decide),
    Nat.not_lt.mpr hprint]

/-- A string is written as its characters. -/
theorem toList_writeString (out text : String) :
    (writeString out text).toList = out.toList ++ stringChars text := by
  have hstep (out : String) (c : Char) :
      (if isPlain c then out.push c else out ++ escaped c).toList =
        out.toList ++ (escaped c).toList := by
    split
    · next hplain => simp [escaped_of_isPlain hplain]
    · simp
  have hfold (cs : List Char) (out : String) :
      (cs.foldl (fun out c => if isPlain c then out.push c else out ++ escaped c) out).toList =
        out.toList ++ cs.flatMap fun c => (escaped c).toList := by
    induction cs generalizing out with
    | nil => simp
    | cons c cs ih => rw [List.foldl_cons, ih, hstep, List.flatMap_cons, List.append_assoc]
  rw [writeString, String.foldl_eq_foldl_toList, String.toList_push, hfold, String.toList_push,
    stringChars, List.append_assoc, List.append_assoc, List.singleton_append]

mutual

/-- A value is written as its characters. -/
theorem toList_write (out : String) : ∀ json : Json,
    (write out json).toList = out.toList ++ chars json
  | .null => by simp [write, chars]
  | .bool true => by simp [write, chars]
  | .bool false => by simp [write, chars]
  | .number n => by simp [write, chars]
  | .string s => by rw [write, chars, toList_writeString]
  | .array items => by
    simp [write, chars, toList_writeItems]
  | .object members => by
    simp [write, chars, toList_writeMembers]

/-- Items are written as their characters, with commas between them. -/
theorem toList_writeItems (out : String) (first : Bool) : ∀ items : List Json,
    (writeItems out first items).toList = out.toList ++ commas first (itemChars items)
  | [] => by simp [writeItems, itemChars, commas]
  | item :: items => by
    rw [writeItems, toList_writeItems, toList_write, itemChars, commas]
    cases first <;> simp

/-- Members are written as their characters, with commas between them. -/
theorem toList_writeMembers (out : String) (first : Bool) : ∀ members : List (String × Json),
    (writeMembers out first members).toList = out.toList ++ commas first (memberChars members)
  | [] => by simp [writeMembers, memberChars, commas]
  | (key, value) :: members => by
    rw [writeMembers, toList_writeMembers, toList_write, memberChars, commas]
    cases first <;> simp [toList_writeString]

end

end EventSnapshot.Json
