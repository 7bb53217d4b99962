import EventSnapshot.Json.Printer

/-!
# Reading JSON

Reads one value from the characters of a text. A text that ends before its value does is
`truncated`, any other departure from the grammar is `malformed`. Arrays and objects nest at most
`maxDepth` levels. What is read is canonical, so it makes a `Value`.
-/

namespace EventSnapshot.Json

/-- Why a text is no JSON value. -/
inductive Fault where
  /-- The text ends too early. -/
  | truncated
  /-- Some character cannot stand where it does, or a number or the nesting is too great. -/
  | malformed
  deriving DecidableEq

/-- Reads a value from the front of a text and returns it with the characters after it. -/
abbrev Scanner (α : Type) := List Char → Except Fault (α × List Char)

/-- How many levels arrays and objects may nest. -/
def maxDepth : Nat := 127

/-- Whether a character may stand between the parts of a value. -/
def isSpace (c : Char) : Bool :=
  c = ' ' || c = '\t' || c = '\n' || c = '\r'

/-- The characters from the first that is no space. -/
def skipSpaces (cs : List Char) : List Char := cs.dropWhile isSpace

/-- The fault of a text whose next character is not the one needed. -/
def faultAt : List Char → Fault
  | [] => .truncated
  | _ :: _ => .malformed

/-- Reads the characters of a word one by one. -/
def scanWord : List Char → List Char → Except Fault (List Char)
  | [], cs => .ok cs
  | _ :: _, [] => .error .truncated
  | w :: ws, c :: cs => if c = w then scanWord ws cs else .error .malformed

/-- Reads a run of one or more digits. -/
def scanDigits (cs : List Char) : Except Fault (List Char × List Char) :=
  match cs.takeWhile Char.isDigit with
  | [] => .error (faultAt cs)
  | digits => .ok (digits, cs.dropWhile Char.isDigit)

/-- Reads the digits before the point; a zero stands alone. -/
def scanWhole (cs : List Char) : Except Fault (List Char × List Char) := do
  let (digits, rest) ← scanDigits cs
  if digits.head? = some '0' && digits.length ≠ 1 then .error .malformed else .ok (digits, rest)

/-- Reads a point and the digits after it, if there is a point. -/
def scanFraction : List Char → Except Fault (Option (List Char) × List Char)
  | '.' :: cs => do
    let (digits, rest) ← scanDigits cs
    .ok (some digits, rest)
  | cs => .ok (none, cs)

/-- The whole number that some digits spell. -/
def digitsValue (digits : List Char) : Nat :=
  digits.foldl (fun n c => n * 10 + Number.digitValue c) 0

/-- Reads an exponent, if there is one. -/
def scanExponent : List Char → Except Fault (Option Int × List Char)
  | c :: cs =>
    if c = 'e' || c = 'E' then
      match cs with
      | '-' :: cs => do
        let (digits, rest) ← scanDigits cs
        .ok (some (-(digitsValue digits : Int)), rest)
      | '+' :: cs => do
        let (digits, rest) ← scanDigits cs
        .ok (some (digitsValue digits : Int), rest)
      | cs => do
        let (digits, rest) ← scanDigits cs
        .ok (some (digitsValue digits : Int), rest)
    else .ok (none, c :: cs)
  | [] => .ok (none, [])

/-- Reads a number after its minus sign, if it has one. -/
def scanNumber (negative : Bool) (cs : List Char) : Except Fault (Number × List Char) := do
  let (whole, cs) ← scanWhole cs
  let (fraction, cs) ← scanFraction cs
  let (exponent, cs) ← scanExponent cs
  match Number.Literal.value? ⟨negative, whole, fraction, exponent⟩ with
  | some n => .ok (n, cs)
  | none => .error .malformed

/-- The value of a hexadecimal digit. -/
def hexValue? (c : Char) : Option Nat :=
  let n := c.toNat
  if 0x30 ≤ n ∧ n ≤ 0x39 then some (n - 0x30)
  else if 0x41 ≤ n ∧ n ≤ 0x46 then some (n - 0x37)
  else if 0x61 ≤ n ∧ n ≤ 0x66 then some (n - 0x57)
  else none

/-- The number that four hexadecimal digits spell. -/
def hexUnit? (a b c d : Char) : Option Nat := do
  let a ← hexValue? a
  let b ← hexValue? b
  let c ← hexValue? c
  let d ← hexValue? d
  some (((a * 16 + b) * 16 + c) * 16 + d)

/-- The fault of characters that do not start with four hexadecimal digits: `truncated` if they
have fewer than four bytes. -/
def hexFault (cs : List Char) : Fault :=
  if (String.ofList (cs.take 4)).utf8ByteSize < 4 then .truncated else .malformed

/-- The character that a backslash and a letter stand for. -/
def escapeChar? (c : Char) : Option Char :=
  if c = '"' then some '"'
  else if c = '\\' then some '\\'
  else if c = '/' then some '/'
  else if c = 'b' then some '\x08'
  else if c = 'f' then some '\x0c'
  else if c = 'n' then some '\n'
  else if c = 'r' then some '\r'
  else if c = 't' then some '\t'
  else none

/-- Reads the rest of a string after its opening quote, with `out` read so far. Outside the first
plane a character is spelled as two escaped units. -/
def scanString (out : String) : List Char → Except Fault (String × List Char)
  | [] => .error .truncated
  | '"' :: cs => .ok (out, cs)
  | '\\' :: 'u' :: a :: b :: c :: d :: cs =>
    match hexUnit? a b c d with
    | none => .error (hexFault (a :: b :: c :: d :: cs))
    | some unit =>
      if unit < 0xd800 || 0xe000 ≤ unit then scanString (out.push (Char.ofNat unit)) cs
      else if 0xdc00 ≤ unit then .error .malformed
      else
        match cs with
        | '\\' :: 'u' :: a :: b :: c :: d :: cs =>
          match hexUnit? a b c d with
          | none => .error (hexFault (a :: b :: c :: d :: cs))
          | some low =>
            if 0xdc00 ≤ low && low < 0xe000 then
              scanString (out.push
                (Char.ofNat (0x10000 + (unit - 0xd800) * 0x400 + (low - 0xdc00)))) cs
            else .error .malformed
        | '\\' :: 'u' :: cs => .error (hexFault cs)
        | '\\' :: cs => .error (faultAt cs)
        | cs => .error (faultAt cs)
  | '\\' :: 'u' :: cs => .error (hexFault cs)
  | '\\' :: c :: cs =>
    match escapeChar? c with
    | some e => scanString (out.push e) cs
    | none => .error .malformed
  | ['\\'] => .error .truncated
  | c :: cs => if c.toNat < 0x20 then .error .malformed else scanString (out.push c) cs

/-- Reads the rest of a list after `item`s already read, up to the closing character. The fuel
bounds the number of items. -/
def scanMore {α : Type} (close : Char) (item : Scanner α) :
    Nat → List α → List Char → Except Fault (List α × List Char)
  | 0, _, _ => .error .malformed
  | fuel + 1, before, cs => do
    let (value, cs) ← item cs
    match skipSpaces cs with
    | [] => .error .truncated
    | c :: cs =>
      if c = ',' then scanMore close item fuel (value :: before) cs
      else if c = close then .ok ((value :: before).reverse, cs)
      else .error .malformed

/-- Reads a list after its opening character. -/
def scanList {α : Type} (close : Char) (item : Scanner α) (fuel : Nat)
    (cs : List Char) : Except Fault (List α × List Char) :=
  match skipSpaces cs with
  | [] => .error .truncated
  | c :: cs => if c = close then .ok ([], cs) else scanMore close item fuel [] (c :: cs)

/-- Reads one member of an object. -/
def scanMember (value : Scanner Json) (cs : List Char) :
    Except Fault ((String × Json) × List Char) :=
  match skipSpaces cs with
  | '"' :: cs => do
    let (key, cs) ← scanString "" cs
    match skipSpaces cs with
    | ':' :: cs => do
      let (value, cs) ← value cs
      .ok ((key, value), cs)
    | cs => .error (faultAt cs)
  | cs => .error (faultAt cs)

/-- Reads a value in which arrays and objects nest at most `depth` levels. -/
def scanValue (fuel : Nat) (depth : Nat) (cs : List Char) : Except Fault (Json × List Char) :=
  match skipSpaces cs with
  | [] => .error .truncated
  | c :: cs =>
    if c = 'n' then do .ok (.null, ← scanWord ['u', 'l', 'l'] cs)
    else if c = 't' then do .ok (.bool true, ← scanWord ['r', 'u', 'e'] cs)
    else if c = 'f' then do .ok (.bool false, ← scanWord ['a', 'l', 's', 'e'] cs)
    else if c = '"' then do
      let (text, cs) ← scanString "" cs
      .ok (.string text, cs)
    else if c = '-' then do
      let (n, cs) ← scanNumber true cs
      .ok (.number n, cs)
    else if c.isDigit then do
      let (n, cs) ← scanNumber false (c :: cs)
      .ok (.number n, cs)
    else
      match depth with
      | 0 => .error .malformed
      | depth + 1 =>
        if c = '[' then do
          let (items, cs) ← scanList ']' (scanValue fuel depth) fuel cs
          .ok (.array items, cs)
        else if c = '\x7b' then do
          let (members, cs) ← scanList '\x7d' (scanMember (scanValue fuel depth)) fuel cs
          .ok (ofMembers members, cs)
        else .error .malformed

/-- Reads a text that is one value, with spaces around it. -/
def parse (text : String) : Except Fault Json := do
  let cs := text.toList
  let (value, rest) ← scanValue (cs.length + 1) maxDepth cs
  if (skipSpaces rest).isEmpty then .ok value else .error .malformed

/-- A successful first step and a successful rest make a success, and nothing else does. -/
theorem bind_eq_ok {ε α β : Type} {first : Except ε α} {next : α → Except ε β} {b : β} :
    first >>= next = .ok b ↔ ∃ a, first = .ok a ∧ next a = .ok b := by
  cases first <;> simp [bind, Except.bind]

/-- What holds of every item read holds of every item of a list read. -/
theorem forall_of_scanMore {α : Type} {P : α → Prop} {close : Char} {item : Scanner α}
    (hitem : ∀ cs value rest, item cs = .ok (value, rest) → P value) {fuel : Nat}
    {before : List α} {cs rest : List Char} {values : List α}
    (h : scanMore close item fuel before cs = .ok (values, rest))
    (hbefore : ∀ value ∈ before, P value) : ∀ value ∈ values, P value := by
  induction fuel generalizing before cs with
  | zero => simp [scanMore] at h
  | succ fuel ih =>
    rw [scanMore, bind_eq_ok] at h
    obtain ⟨⟨value, cs'⟩, hvalue, h⟩ := h
    have hall : ∀ v ∈ value :: before, P v := by
      simpa using ⟨hitem _ _ _ hvalue, hbefore⟩
    dsimp only at h
    split at h
    · cases h
    · split at h
      · exact ih h hall
      · split at h
        · cases h
          exact fun v hv => hall v (List.mem_reverse.mp hv)
        · cases h

/-- What holds of every item read holds of every item of a list read. -/
theorem forall_of_scanList {α : Type} {P : α → Prop} {close : Char} {item : Scanner α}
    (hitem : ∀ cs value rest, item cs = .ok (value, rest) → P value) {fuel : Nat}
    {cs rest : List Char} {values : List α}
    (h : scanList close item fuel cs = .ok (values, rest)) : ∀ value ∈ values, P value := by
  rw [scanList] at h
  split at h
  · cases h
  · split at h
    · cases h
      simp
    · exact forall_of_scanMore hitem h (by simp)

/-- A member read has a value read. -/
theorem canonical_of_scanMember {value : Scanner Json}
    (hvalue : ∀ cs v rest, value cs = .ok (v, rest) → Canonical v) (cs : List Char)
    (member : String × Json) (rest : List Char)
    (h : scanMember value cs = .ok (member, rest)) : Canonical member.2 := by
  rw [scanMember] at h
  split at h
  · rw [bind_eq_ok] at h
    obtain ⟨⟨key, cs'⟩, -, h⟩ := h
    dsimp only at h
    split at h
    · rw [bind_eq_ok] at h
      obtain ⟨⟨v, cs'⟩, hv, h⟩ := h
      cases h
      exact hvalue _ _ _ hv
    · cases h
  · cases h

/-- What is read is canonical. -/
theorem canonical_of_scanValue {fuel depth : Nat} (cs : List Char) (value : Json)
    (rest : List Char) (h : scanValue fuel depth cs = .ok (value, rest)) : Canonical value := by
  induction depth generalizing cs value rest with
  | zero =>
    rw [scanValue.eq_def] at h
    split at h
    · cases h
    · iterate 3
        split at h
        · obtain ⟨word, -, h⟩ := bind_eq_ok.mp h
          cases h
          simp [Canonical]
      iterate 3
        split at h
        · obtain ⟨⟨part, rest'⟩, -, h⟩ := bind_eq_ok.mp h
          cases h
          simp [Canonical]
      cases h
  | succ depth ih =>
    rw [scanValue.eq_def] at h
    split at h
    · cases h
    · iterate 3
        split at h
        · obtain ⟨word, -, h⟩ := bind_eq_ok.mp h
          cases h
          simp [Canonical]
      iterate 3
        split at h
        · obtain ⟨⟨part, rest'⟩, -, h⟩ := bind_eq_ok.mp h
          cases h
          simp [Canonical]
      dsimp only at h
      split at h
      · obtain ⟨⟨items, rest'⟩, hitems, h⟩ := bind_eq_ok.mp h
        cases h
        simpa [Canonical] using canonicalItems_iff.mpr (forall_of_scanList ih hitems)
      · split at h
        · obtain ⟨⟨members, rest'⟩, hmembers, h⟩ := bind_eq_ok.mp h
          cases h
          exact canonical_ofMembers (forall_of_scanList (canonical_of_scanMember ih) hmembers)
        · cases h

/-- What a text holds is canonical. -/
theorem canonical_of_parse {text : String} {value : Json} (h : parse text = .ok value) :
    Canonical value := by
  obtain ⟨⟨value', rest⟩, hvalue, h⟩ := bind_eq_ok.mp h
  dsimp only at h
  split at h
  · cases h
    exact canonical_of_scanValue _ _ _ hvalue
  · cases h

end EventSnapshot.Json

namespace EventSnapshot.Value

/-- The value that a text holds. -/
def parse (text : String) : Except Json.Fault Value :=
  match h : Json.parse text with
  | .ok json => .ok ⟨json, Json.canonical_of_parse h⟩
  | .error fault => .error fault

end EventSnapshot.Value
