import EventSnapshot.Proofs.Json.Scanning
import EventSnapshot.Proofs.Json.Text
import EventSnapshot.Proofs.Json.Trees

/-!
# Reading what was written

The text of a value is scanned as that value again, its numbers as what their texts are read as,
unless the value nests too deep. The statements are about a text with anything after it that ends
a number, so that the parts of a value can be scanned one after the other.
-/

namespace EventSnapshot.Json

/-! ## Strings -/

/-- A control character without a name is spelled by its number. -/
theorem toList_hexadecimalFilled : ∀ n < 0x20,
    (Text.hexadecimalFilled 4 n).toList =
        ['0', '0', Nat.digitChar (n / 16), Nat.digitChar (n % 16)] ∧
      hexUnit? '0' '0' (Nat.digitChar (n / 16)) (Nat.digitChar (n % 16)) = some n := by
  simp only [Text.hexadecimalFilled, String.toList_ofList]
  decide

/-- A character is scanned where it was spelled. -/
theorem scanString_escaped (out : String) (c : Char) (rest : List Char) :
    scanString out ((escaped c).toList ++ rest) = scanString (out.push c) rest := by
  unfold escaped
  iterate 7
    split
    · next h =>
      subst h
      simp [scanString, escapeChar?]
  split
  · next hcontrol =>
    obtain ⟨hspelled, hunit⟩ := toList_hexadecimalFilled c.toNat hcontrol
    have hlow : c.toNat < 0xd800 := by omega
    rw [String.toList_append, hspelled]
    simp [scanString, hunit, hlow]
  · next hquote hback _ _ _ _ _ hprint =>
    simp [scanString, hback, hprint]

/-- A string is scanned from after its opening quote on. -/
theorem scanString_append (out text : String) (rest : List Char) :
    scanString out (text.toList.flatMap (fun c => (escaped c).toList) ++ '"' :: rest) =
      .ok (out ++ text, rest) := by
  have hchars (cs : List Char) (out : String) :
      scanString out (cs.flatMap (fun c => (escaped c).toList) ++ '"' :: rest) =
        .ok (out ++ String.ofList cs, rest) := by
    induction cs generalizing out with
    | nil => simp [scanString]
    | cons c cs ih =>
      have hpush : out.push c ++ String.ofList cs = out ++ String.ofList (c :: cs) := by
        apply String.toList_injective
        simp
      rw [List.flatMap_cons, List.append_assoc, scanString_escaped, ih, hpush]
  rw [hchars, String.ofList_toList]

/-! ## Lists -/

/-- A scanner has a result on a text, whatever comes after it, as long as that ends a number. -/
def Reads {α : Type} (item : Scanner α) (text : List Char) (result : Except Fault α) : Prop :=
  ∀ rest, Ends rest → item (text ++ rest) = result.map fun value => (value, rest)

section Lists

variable {α β : Type} {close : Char} {item : Scanner α} {text : β → List Char}
  {value : β → Except Fault α}

/-- The items of a list are scanned one after the other, up to the first that fails. -/
theorem scanMore_commas (hclose : close = ']' ∨ close = '\x7d') {first : β} {items : List β}
    (hreads : ∀ x ∈ first :: items, Reads item (text x) (value x)) {fuel : Nat}
    (hfuel : items.length < fuel) (before : List α) (rest : List Char) :
    scanMore close item fuel before (commas true ((first :: items).map text) ++ close :: rest) =
      ((first :: items).mapM value).map fun values => (before.reverse ++ values, rest) := by
  have hends : Ends (close :: rest) := by
    rcases hclose with rfl | rfl <;> simp [Ends]
  have hspace : isSpace close = false ∧ close ≠ ',' := by
    rcases hclose with rfl | rfl <;> decide
  induction items generalizing first fuel before with
  | nil =>
    obtain ⟨fuel, rfl⟩ := Nat.exists_eq_succ_of_ne_zero (Nat.ne_zero_of_lt hfuel)
    have hfirst := hreads first (List.mem_cons_self ..) _ hends
    rw [List.map_singleton, commas, commas, if_pos rfl, List.nil_append, List.append_nil, scanMore,
      hfirst]
    cases hvalue : value first with
    | error fault => simp [hvalue, Except.map, bind, Except.bind]
    | ok v => simp [hvalue, Except.map, bind, Except.bind, pure, Except.pure, skipSpaces, hspace]
  | cons second items ih =>
    obtain ⟨fuel, rfl⟩ := Nat.exists_eq_succ_of_ne_zero (Nat.ne_zero_of_lt hfuel)
    have hfirst := hreads first (List.mem_cons_self ..)
      (',' :: (commas true ((second :: items).map text) ++ close :: rest)) (by simp [Ends])
    have hcomma : commas true ((first :: second :: items).map text) ++ close :: rest =
        text first ++ ',' :: (commas true ((second :: items).map text) ++ close :: rest) := by
      simp [commas]
    rw [hcomma, scanMore, hfirst, List.mapM_cons]
    cases hvalue : value first with
    | error fault => simp [Except.map, bind, Except.bind]
    | ok v =>
      have hrest := ih (fun x hx => hreads x (List.mem_cons_of_mem _ hx))
        (Nat.lt_of_succ_lt_succ hfuel) (v :: before)
      simp only [Except.map, bind, Except.bind]
      rw [skipSpaces_cons (by decide)]
      dsimp only
      rw [if_pos rfl, hrest]
      cases (second :: items).mapM value with
      | error fault => rfl
      | ok values => simp [Except.map, pure, Except.pure]

/-- A list is scanned from after its opening character on, if no item starts with a space or with
the closing character. -/
theorem scanList_commas (hclose : close = ']' ∨ close = '\x7d') {items : List β}
    (hreads : ∀ x ∈ items, Reads item (text x) (value x))
    (hstarts : ∀ x ∈ items, ∃ c cs, text x = c :: cs ∧ isSpace c = false ∧ c ≠ close) {fuel : Nat}
    (hfuel : items.length ≤ fuel) (rest : List Char) :
    scanList close item fuel (commas true (items.map text) ++ close :: rest) =
      (items.mapM value).map fun values => (values, rest) := by
  cases items with
  | nil =>
    have hspace : isSpace close = false := by
      rcases hclose with rfl | rfl <;> decide
    simp [commas, scanList, skipSpaces, hspace, Except.map, pure, Except.pure]
  | cons first items =>
    obtain ⟨c, cs, htext, hspace, hne⟩ := hstarts first (List.mem_cons_self ..)
    have hmore := scanMore_commas hclose hreads (Nat.lt_of_succ_le hfuel) [] rest
    have hcons : commas true ((first :: items).map text) ++ close :: rest =
        c :: (cs ++ commas false (items.map text) ++ close :: rest) := by
      simp [commas, htext]
    rw [hcons] at hmore ⊢
    rw [scanList, skipSpaces_cons hspace]
    dsimp only
    rw [if_neg hne, hmore]
    rfl

end Lists

/-- If what decides about each item is a condition, then all items succeed or none does. -/
theorem mapM_ite {ε α β : Type} {items : List β} {p : β → Prop} [DecidablePred p] {f : β → α}
    {fault : ε} :
    (items.mapM fun x => if p x then Except.ok (f x) else Except.error fault) =
      if ∀ x ∈ items, p x then .ok (items.map f) else .error fault := by
  induction items with
  | nil => simp [pure, Except.pure]
  | cons first items ih =>
    rw [List.mapM_cons, ih]
    simp only [List.forall_mem_cons]
    by_cases hfirst : p first
    · by_cases hitems : ∀ x ∈ items, p x
      · rw [if_pos hfirst, if_pos hitems, if_pos ⟨hfirst, hitems⟩]
        rfl
      · have hall : ¬ (p first ∧ ∀ x ∈ items, p x) := fun h => hitems h.2
        rw [if_pos hfirst, if_neg hitems, if_neg hall]
        rfl
    · have hall : ¬ (p first ∧ ∀ x ∈ items, p x) := fun h => hfirst h.1
      rw [if_neg hfirst, if_neg hall]
      rfl

/-- A member is scanned if its value is. -/
theorem reads_member {value : Scanner Json} (key : String) {text : List Char}
    {result : Except Fault Json} (h : Reads value text result) :
    Reads (scanMember value) (stringChars key ++ ':' :: text)
      (result.map fun json => (key, json)) := by
  intro rest hrest
  have hkey := scanString_append "" key (':' :: (text ++ rest))
  rw [stringChars]
  simp only [List.cons_append, List.append_assoc, List.nil_append]
  rw [scanMember, skipSpaces_cons (by decide)]
  simp only [hkey, bind, Except.bind]
  rw [skipSpaces_cons (by decide)]
  simp only [h rest hrest]
  cases result with
  | error fault => rfl
  | ok json => simp [Except.map]

/-! ## Scanning a value -/

/-- A readable literal has a digit after its sign. -/
theorem unsigned_start {literal : Number.Literal} (hwell : literal.WellFormed) :
    ∃ c cs, literal.unsigned = c :: cs ∧ c.isDigit := by
  obtain ⟨c, cs, hwhole⟩ := List.exists_cons_of_ne_nil hwell.whole_ne
  refine ⟨c, cs ++ Number.fractionChars literal.fraction ++ Number.exponentChars literal.exponent,
    ?_, hwell.whole_digits c (hwhole ▸ List.mem_cons_self ..)⟩
  rw [Number.Literal.unsigned, hwhole]
  rfl

/-- A value starts neither with a space nor with what closes a list. -/
theorem chars_start (json : Json) :
    ∃ c cs, json.chars = c :: cs ∧ isSpace c = false ∧ c ≠ ']' := by
  cases json with
  | null => exact ⟨_, _, rfl, by decide, by decide⟩
  | bool b => cases b <;> exact ⟨_, _, rfl, by decide, by decide⟩
  | number n =>
    obtain ⟨c, cs, hunsigned, hdigit⟩ := unsigned_start n.literal_spec.1
    rw [chars, n.text_eq, Number.Literal.chars, hunsigned]
    split
    · exact ⟨_, _, rfl, by decide, by decide⟩
    · exact ⟨_, _, rfl, isSpace_of_isDigit hdigit, ne_of_isDigit hdigit ']' rfl⟩
  | string s =>
    rw [chars, stringChars]
    exact ⟨_, _, rfl, by decide, by decide⟩
  | array items => exact ⟨_, _, rfl, by decide, by decide⟩
  | object members => exact ⟨_, _, rfl, by decide, by decide⟩

/-- Every value has some text. -/
theorem chars_ne_nil (json : Json) : json.chars ≠ [] := by
  obtain ⟨c, cs, hchars, -⟩ := chars_start json
  rw [hchars]
  exact List.cons_ne_nil c cs

/-- A number is scanned as what its text is read as. -/
theorem reads_number {fuel depth : Nat} (n : Number) :
    Reads (scanValue fuel depth) n.text (.ok (.number n.reread)) := by
  intro rest hrest
  obtain ⟨hwell, hvalue⟩ := n.literal_spec
  have hnumber := scanNumber_unsigned hwell hvalue hrest
  rw [n.text_eq, Number.Literal.chars]
  split
  · next hnegative =>
    rw [hnegative] at hnumber
    rw [List.append_assoc, List.singleton_append, scanValue.eq_def, skipSpaces_cons (by decide)]
    simp [hnumber, bind, Except.bind, Except.map]
  · next hpositive =>
    obtain ⟨c, cs, hunsigned, hdigit⟩ := unsigned_start hwell
    rw [Bool.not_eq_true] at hpositive
    rw [hpositive, hunsigned, List.cons_append] at hnumber
    rw [hunsigned, List.nil_append, List.cons_append,
      scanValue_of_isDigit (skipSpaces_cons (isSpace_of_isDigit hdigit)) hdigit hnumber]
    rfl

/-- A list of texts is not shorter than each of them. -/
theorem length_le_commas (first : Bool) {texts : List (List Char)} {text : List Char}
    (h : text ∈ texts) : text.length ≤ (commas first texts).length := by
  induction texts generalizing first with
  | nil => cases h
  | cons head texts ih =>
    rw [commas, List.length_append, List.length_append]
    rcases List.mem_cons.mp h with rfl | h
    · omega
    · have hrest := ih false h
      omega

/-- A list of texts that are not empty has at least as many characters as texts. -/
theorem length_texts_le_commas (first : Bool) {texts : List (List Char)}
    (h : ∀ text ∈ texts, text ≠ []) : texts.length ≤ (commas first texts).length := by
  induction texts generalizing first with
  | nil => simp
  | cons head texts ih =>
    obtain ⟨hhead, htexts⟩ := List.forall_mem_cons.mp h
    have hrest := ih false htexts
    have hpos := List.length_pos_iff.mpr hhead
    rw [commas, List.length_append, List.length_append, List.length_cons]
    omega

/-- The text of an array is scanned if the texts of its items are. -/
theorem scanValue_array {fuel depth : Nat} (cs : List Char) :
    scanValue fuel (depth + 1) ('[' :: cs) =
      (scanList ']' (scanValue fuel depth) fuel cs).map
        fun (items, rest) => (.array items, rest) := by
  rw [scanValue.eq_def, skipSpaces_cons (by decide)]
  simp [bind, Except.bind, Except.map]

/-- Text is scanned as an object from its brace on. -/
theorem scanValue_object {fuel depth : Nat} (cs : List Char) :
    scanValue fuel (depth + 1) ('\x7b' :: cs) =
      (scanList '\x7d' (scanMember (scanValue fuel depth)) fuel cs).map
        fun (members, rest) => (ofMembers members, rest) := by
  rw [scanValue.eq_def, skipSpaces_cons (by decide)]
  simp [bind, Except.bind, Except.map]

/-- What the text of a tree is scanned as where some levels of nesting are left. -/
def rereadWithin (depth : Nat) (json : Json) : Except Fault Json :=
  if json.nesting ≤ depth then .ok json.reread else .error .malformed

/-- An array is scanned if its items are. -/
theorem reads_array {fuel depth : Nat} {items : List Json}
    (hfuel : (array items).chars.length ≤ fuel)
    (hitems : ∀ depth, ∀ item ∈ items,
      Reads (scanValue fuel depth) item.chars (rereadWithin depth item)) :
    Reads (scanValue fuel depth) (array items).chars (rereadWithin depth (array items)) := by
  intro rest _
  rw [chars, itemChars_eq_map] at hfuel ⊢
  rw [List.cons_append, List.append_assoc, List.singleton_append, rereadWithin, nesting]
  cases depth with
  | zero =>
    rw [scanValue.eq_def, skipSpaces_cons (by decide)]
    simp [Except.map]
  | succ depth =>
    have hlength : items.length ≤ fuel := by
      have hcommas : (items.map chars).length ≤ _ :=
        length_texts_le_commas true (by simp [chars_ne_nil])
      rw [List.length_map] at hcommas
      rw [List.length_cons, List.length_append] at hfuel
      omega
    rw [scanValue_array, scanList_commas (.inl rfl) (hitems depth) (fun item _ => chars_start item)
      hlength]
    unfold rereadWithin
    rw [mapM_ite, reread, rereadItems_eq_map]
    simp only [Nat.add_le_add_iff_right, itemNesting_le_iff]
    split <;> rfl

/-- An object is scanned if the values of its members are. -/
theorem reads_object {fuel depth : Nat} {members : List (String × Json)}
    (hascend : KeysAscend members) (hfuel : (object members).chars.length ≤ fuel)
    (hmembers : ∀ depth, ∀ member ∈ members,
      Reads (scanValue fuel depth) member.2.chars (rereadWithin depth member.2)) :
    Reads (scanValue fuel depth) (object members).chars (rereadWithin depth (object members)) := by
  intro rest _
  rw [chars, memberChars_eq_map] at hfuel ⊢
  rw [List.cons_append, List.append_assoc, List.singleton_append, rereadWithin, nesting]
  cases depth with
  | zero =>
    rw [scanValue.eq_def, skipSpaces_cons (by decide)]
    simp [Except.map]
  | succ depth =>
    have hlength : members.length ≤ fuel := by
      have hcommas : (members.map memberText).length ≤ _ :=
        length_texts_le_commas true (List.forall_mem_map.mpr fun _ _ => List.cons_ne_nil _ _)
      rw [List.length_map] at hcommas
      rw [List.length_cons, List.length_append] at hfuel
      omega
    have hreads : ∀ member ∈ members, Reads (scanMember (scanValue fuel depth)) (memberText member)
        (if member.2.nesting ≤ depth then .ok (member.1, member.2.reread)
          else .error .malformed) := by
      intro member hmember
      have hmember := reads_member member.1 (hmembers depth member hmember)
      rw [rereadWithin, apply_ite (Except.map _)] at hmember
      exact hmember
    rw [scanValue_object, scanList_commas (.inr rfl) hreads
      (fun member _ => ⟨_, _, rfl, by decide, by decide⟩) hlength, mapM_ite, reread,
      rereadMembers_eq_map]
    simp only [Nat.add_le_add_iff_right, memberNesting_le_iff]
    split
    · have hsame : KeysAscend (members.map fun member => (member.1, member.2.reread)) :=
        List.pairwise_map.mpr hascend
      simp only [Except.map, ofMembers_of_keysAscend hsame]
    · rfl

/-- The text of a value is scanned as what its numbers are read as, if it does not nest deeper than
there are levels left. -/
theorem reads_chars {json : Json} (hcanonical : json.Canonical) {fuel : Nat}
    (hfuel : json.chars.length ≤ fuel) (depth : Nat) :
    Reads (scanValue fuel depth) json.chars (rereadWithin depth json) := by
  induction json using Json.induction generalizing depth with
  | null =>
    intro rest _
    rw [rereadWithin, nesting, if_pos (Nat.zero_le _), chars, reread, scanValue.eq_def,
      List.cons_append, skipSpaces_cons (by decide)]
    simp [scanWord, bind, Except.bind, Except.map]
  | bool b =>
    intro rest _
    rw [rereadWithin, nesting, if_pos (Nat.zero_le _), reread]
    cases b <;>
    · rw [chars, scanValue.eq_def, List.cons_append, skipSpaces_cons (by decide)]
      simp [scanWord, bind, Except.bind, Except.map]
  | number n =>
    rw [rereadWithin, nesting, if_pos (Nat.zero_le _), reread, chars]
    exact reads_number n
  | string s =>
    intro rest _
    rw [rereadWithin, nesting, if_pos (Nat.zero_le _), reread, chars, stringChars, scanValue.eq_def,
      List.cons_append, skipSpaces_cons (by decide)]
    simp [scanString_append, bind, Except.bind, Except.map]
  | array items ih =>
    rw [Canonical, canonicalItems_iff] at hcanonical
    apply reads_array hfuel
    intro depth item hitem
    apply ih item hitem (hcanonical item hitem)
    rw [chars, itemChars_eq_map, List.length_cons, List.length_append] at hfuel
    have hle := length_le_commas true (List.mem_map_of_mem (f := chars) hitem)
    omega
  | object members ih =>
    rw [Canonical, canonicalMembers_iff] at hcanonical
    apply reads_object hcanonical.1 hfuel
    intro depth member hmember
    apply ih member hmember (hcanonical.2 member hmember)
    rw [chars, memberChars_eq_map, List.length_cons, List.length_append] at hfuel
    have hle := length_le_commas true (List.mem_map_of_mem (f := memberText) hmember)
    rw [memberText, List.length_append, List.length_cons] at hle
    omega

/-- A value is written as its characters and read as what its numbers are read as, unless it nests
too deep. -/
theorem parse_write {json : Json} (hcanonical : json.Canonical) :
    parse (json.write "") = rereadWithin maxDepth json := by
  have htext : (json.write "").toList = json.chars := by
    rw [toList_write]
    rfl
  have hreads := reads_chars hcanonical (Nat.le_succ json.chars.length) maxDepth [] (by simp [Ends])
  rw [List.append_nil] at hreads
  unfold parse
  simp only [htext, hreads]
  cases rereadWithin maxDepth json with
  | error fault => rfl
  | ok value => simp [Except.map, bind, Except.bind, skipSpaces]

end EventSnapshot.Json

namespace EventSnapshot.Value

/-- The value with the numbers that its texts are read as. -/
def reread (value : Value) : Value := ⟨value.json.reread, Json.canonical_reread value.canonical⟩

/-- What is read from the text of a value. -/
theorem parse_text (value : Value) :
    parse value.text =
      if value.json.nesting ≤ Json.maxDepth then .ok value.reread else .error .malformed := by
  have hjson := Json.parse_write value.canonical
  rw [Json.rereadWithin] at hjson
  split at hjson
  · next hnesting =>
    rw [if_pos hnesting, parse_eq_ok_iff]
    exact hjson
  · next hnesting =>
    rw [if_neg hnesting, parse_eq_error_iff]
    exact hjson

/-- A value without floating-point numbers is read as itself. -/
theorem reread_of_exact {value : Value} (h : value.json.Exact) : value.reread = value := by
  simp only [reread, Json.reread_of_exact h]

/-- The text of a value without floating-point numbers, nested no deeper than a text that is read
may be, is read as the value. -/
theorem parse_text_of_exact {value : Value} (hexact : value.json.Exact)
    (hnesting : value.json.nesting ≤ Json.maxDepth) : parse value.text = .ok value := by
  rw [parse_text, if_pos hnesting, reread_of_exact hexact]

end EventSnapshot.Value
