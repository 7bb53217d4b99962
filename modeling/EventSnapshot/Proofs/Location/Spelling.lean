import EventSnapshot.Proofs.Location.Caller

/-!
# Names in locations

A demangler spells a function of a type in one of three ways, and marks each closure that the code
stands in at the end. A location drops the marks of the old kind from the end of the path, splits
the path at its last double colon, and drops the brackets that open it. So it names the type and the
function exactly if the type stands there without brackets and all marks are of the old kind.
-/

namespace EventSnapshot

/-! ## Spellings -/

/-- How a symbol says that a function belongs to a type. -/
inductive Membership where
  /-- The path of the type stands in front of the function. -/
  | plain
  /-- The path of the type stands in brackets. -/
  | inherent
  /-- The path of the type stands in brackets with that of a trait. -/
  | ofTrait (traitPath : String)

/-- How a symbol marks a closure. -/
inductive ClosureMark where
  /-- The old kind of mark, the same for all closures. -/
  | unnumbered
  /-- The new kind of mark, with the number of the closure. -/
  | numbered (index : Nat)

/-- A place in a function of a type, any number of closures deep. -/
structure CodePlace where
  /-- The path of the type. -/
  typePath : String
  /-- How the function belongs to the type. -/
  membership : Membership
  /-- The name of the function. -/
  method : String
  /-- The marks of the closures, the outermost first. -/
  marks : List ClosureMark
  /-- The path has a segment. -/
  typePath_ne : typePath.toList ≠ []
  /-- There are no brackets in the path. -/
  typePath_free : ∀ c ∈ typePath.toList, c ≠ '<' ∧ c ≠ '>'
  /-- The name is not empty. -/
  method_ne : method.toList ≠ []
  /-- There are no colons and no braces in the name. -/
  method_free : ∀ c ∈ method.toList, c ≠ ':' ∧ c ≠ '\x7b' ∧ c ≠ '\x7d'

namespace Membership

/-- What stands in front of the path of the type. -/
def opening : Membership → String
  | .plain => ""
  | _ => "<"

/-- What stands behind the path of the type. -/
def closing : Membership → String
  | .plain => ""
  | .inherent => ">"
  | .ofTrait traitPath => " as " ++ traitPath ++ ">"

/-- Only a path without brackets has nothing behind it. -/
theorem eq_plain_of_closing {membership : Membership} (h : membership.closing.length = 0) :
    membership = .plain := by
  cases membership with
  | plain => rfl
  | inherent => cases h
  | ofTrait traitPath => simp [closing] at h

end Membership

namespace ClosureMark

/-- The name that a mark gives to its closure. -/
def name : ClosureMark → String
  | .unnumbered => "\x7b\x7bclosure\x7d\x7d"
  | .numbered index => "\x7bclosure#" ++ toString index ++ "\x7d"

/-- Some marks, one after the other. -/
def spelled : List ClosureMark → String
  | [] => ""
  | mark :: marks => "::" ++ mark.name ++ spelled marks

/-- Marks in sequence are spelled one after the other. -/
theorem spelled_append (first others : List ClosureMark) :
    spelled (first ++ others) = spelled first ++ spelled others := by
  induction first with
  | nil => simp [spelled]
  | cons mark first ih => simp [spelled, ih, String.append_assoc]

/-- Either all marks are of the old kind, or one of the new kind has only such marks behind it. -/
theorem all_or_exists_numbered (marks : List ClosureMark) :
    (∃ count, marks = List.replicate count .unnumbered) ∨
      ∃ before index count,
        marks = before ++ .numbered index :: List.replicate count .unnumbered := by
  induction marks with
  | nil => exact .inl ⟨0, rfl⟩
  | cons mark marks ih =>
    rcases ih with ⟨count, rfl⟩ | ⟨before, index, count, rfl⟩
    · cases mark with
      | unnumbered => exact .inl ⟨count + 1, rfl⟩
      | numbered index => exact .inr ⟨[], index, count, rfl⟩
    · exact .inr ⟨mark :: before, index, count, rfl⟩

/-- The number in a mark is spelled without colons and braces. -/
theorem ne_of_mem_toString {index : Nat} {c : Char} (h : c ∈ (toString index).toList) :
    c ≠ ':' ∧ c ≠ '\x7d' := by
  have hdigits : (toString index).toList = Nat.toDigits 10 index := Nat.toList_repr
  rw [hdigits] at h
  have hdigit := Nat.isDigit_of_mem_toDigits (by decide) (by decide) h
  constructor <;> rintro rfl <;> simp at hdigit

end ClosureMark

/-- The symbol that a demangler gives to a place. -/
def CodePlace.spelling (place : CodePlace) : String :=
  place.membership.opening ++ place.typePath ++ place.membership.closing ++ "::" ++ place.method ++
    ClosureMark.spelled place.marks

namespace Location

/-! ## The parts of a path -/

/-- A mark of the old kind is dropped from the end of a path. -/
theorem withoutClosures_closureMark (path : List Char) :
    withoutClosures (closureMark ++ path) = withoutClosures path := by
  rw [withoutClosures]
  split
  · next rest hrest =>
    rw [stripStart?_eq_some_iff, List.append_right_inj] at hrest
    rw [hrest]
  · next hnone =>
    rw [stripStart?_eq_some_iff.mpr rfl] at hnone
    cases hnone

/-- All marks of the old kind are dropped from the end of a path. -/
theorem withoutClosures_replicate (path : String) (count : Nat) :
    withoutClosures (path ++ ClosureMark.spelled (.replicate count .unnumbered)).toList.reverse =
      withoutClosures path.toList.reverse := by
  induction count with
  | zero => simp [ClosureMark.spelled]
  | succ count ih =>
    have hmark : (ClosureMark.spelled [.unnumbered]).toList.reverse = closureMark := rfl
    rw [List.replicate_succ', ClosureMark.spelled_append, ← String.append_assoc,
      String.toList_append, List.reverse_append, hmark, withoutClosures_closureMark, ih]

/-- A path that does not end in two braces is left as it is. -/
theorem withoutClosures_of_not_prefix {path : List Char} (h : ¬['\x7d', '\x7d'] <+: path) :
    withoutClosures path = path := by
  rw [withoutClosures]
  split
  · next rest hrest =>
    have hbraces : ['\x7d', '\x7d'] <+: closureMark := by decide
    have hpath := stripStart?_eq_some_iff.mp hrest
    exact absurd (hbraces.trans ⟨rest, hpath.symm⟩) h
  · rfl

/-- A path splits at its first double colon if no colon stands in front of it. -/
theorem splitAtColons_append {front : List Char} (h : ∀ c ∈ front, c ≠ ':') (rest : List Char) :
    splitAtColons (front ++ ':' :: ':' :: rest) = some (front, rest) := by
  induction front with
  | nil => rfl
  | cons c front ih =>
    obtain ⟨hc, hfront⟩ := List.forall_mem_cons.mp h
    rw [List.cons_append, splitAtColons, ih hfront]
    · rfl
    · intro _ hcolon
      exact absurd hcolon hc

/-- A text without closing braces does not end in one. -/
theorem not_brace_prefix {front : List Char} (hne : front ≠ []) (hfree : ∀ c ∈ front, c ≠ '\x7d')
    (rest : List Char) : ¬['\x7d'] <+: front.reverse ++ rest := by
  obtain ⟨last, back, hback⟩ := List.exists_cons_of_ne_nil (List.reverse_ne_nil_iff.mpr hne)
  have hlast : last ∈ front := by
    rw [← List.mem_reverse, hback]
    exact List.mem_cons_self
  rw [hback, List.cons_append, List.cons_prefix_cons]
  rintro ⟨rfl, -⟩
  exact hfree _ hlast rfl

/-- A name that a location can give to a function: without colons, and not the mark of a closure of
the old kind. -/
structure IsLastName (name : String) : Prop where
  ne_colon : ∀ c ∈ name.toList, c ≠ ':'
  not_prefix : ∀ rest, ¬['\x7d', '\x7d'] <+: name.toList.reverse ++ rest

/-- The name of a function is one. -/
theorem isLastName_method (place : CodePlace) : IsLastName place.method where
  ne_colon := fun c hc => (place.method_free c hc).1
  not_prefix := by
    intro rest hprefix
    have hfree := fun c hc => (place.method_free c hc).2.2
    exact not_brace_prefix place.method_ne hfree rest (List.IsPrefix.trans ⟨['\x7d'], rfl⟩ hprefix)

/-- The name of a closure of the new kind is one. -/
theorem isLastName_numbered (index : Nat) : IsLastName (ClosureMark.numbered index).name where
  ne_colon := by
    have hstart : ∀ c ∈ "\x7bclosure#".toList, c ≠ ':' := by simp
    have hend : ∀ c ∈ "\x7d".toList, c ≠ ':' := by simp
    intro c hc
    simp only [ClosureMark.name, String.toList_append, List.mem_append] at hc
    rcases hc with (hc | hc) | hc
    · exact hstart c hc
    · exact (ClosureMark.ne_of_mem_toString hc).1
    · exact hend c hc
  not_prefix := by
    have hstart : ∀ c ∈ "\x7bclosure#".toList, c ≠ '\x7d' := by simp
    have hfree : ∀ c ∈ "\x7bclosure#".toList ++ (toString index).toList, c ≠ '\x7d' := by
      intro c hc
      rcases List.mem_append.mp hc with hc | hc
      · exact hstart c hc
      · exact (ClosureMark.ne_of_mem_toString hc).2
    intro rest hprefix
    have hname : (ClosureMark.numbered index).name.toList.reverse =
        '\x7d' :: ("\x7bclosure#".toList ++ (toString index).toList).reverse := by
      simp [ClosureMark.name]
    -- The last brace is the only one.
    rw [hname, List.cons_append, List.cons_prefix_cons] at hprefix
    exact not_brace_prefix (by simp) hfree rest hprefix.2

/-- A path splits into a scope and the last name in front of the marks of the old kind. -/
theorem names_ofSymbol (scope : String) {name : String} (hname : IsLastName name) (count : Nat)
    (file : Option String) (line : Option Nat) :
    let marks := ClosureMark.spelled (.replicate count .unnumbered)
    let location := ofSymbol ⟨scope ++ "::" ++ name ++ marks, file, line⟩
    location.className = String.ofList (scope.toList.dropWhile (· = '<')) ∧
      location.methodName = name := by
  intro marks location
  have hreverse : (scope ++ "::" ++ name).toList.reverse =
      name.toList.reverse ++ ':' :: ':' :: scope.toList.reverse := by simp
  have hpath : withoutClosures (scope ++ "::" ++ name ++ marks).toList.reverse =
      name.toList.reverse ++ ':' :: ':' :: scope.toList.reverse := by
    rw [withoutClosures_replicate, hreverse]
    exact withoutClosures_of_not_prefix (hname.not_prefix _)
  have hsplit := splitAtColons_append
    (fun c hc => hname.ne_colon c (List.mem_reverse.mp hc)) scope.toList.reverse
  simp only [location, ofSymbol, hpath, hsplit, List.reverse_reverse, String.ofList_toList,
    and_self]

/-- Of the scope of a place, what opens it is dropped. -/
theorem dropWhile_opening (place : CodePlace) (rest : String) :
    String.ofList ((place.membership.opening ++ place.typePath ++ rest).toList.dropWhile
      (· = '<')) = place.typePath ++ rest := by
  obtain ⟨c, others, htype⟩ := List.exists_cons_of_ne_nil place.typePath_ne
  have hc : c ≠ '<' := (place.typePath_free c (by rw [htype]; exact List.mem_cons_self)).1
  have hopening : ∀ c ∈ place.membership.opening.toList, decide (c = '<') = true := by
    cases place.membership <;> simp [Membership.opening]
  rw [String.append_assoc, String.toList_append, List.dropWhile_append_of_pos hopening,
    String.toList_append, htype, List.cons_append, List.dropWhile_cons_of_neg (by simpa using hc),
    ← List.cons_append, ← htype, ← String.toList_append, String.ofList_toList]

/-- What the location of a place in a function of a type names. -/
structure NamesFunction (place : CodePlace) (file : Option String) (line : Option Nat) : Prop where
  /-- If all marks are of the old kind, the method is the function, and the class is the type with
  what stands behind it. -/
  unnumbered : (∀ mark ∈ place.marks, mark = .unnumbered) →
    let location := ofSymbol ⟨place.spelling, file, line⟩
    location.className = place.typePath ++ place.membership.closing ∧
      location.methodName = place.method
  /-- Otherwise the last mark of the new kind is the method, and all in front of it is the class. -/
  numbered : ∀ before index count,
    place.marks = before ++ .numbered index :: List.replicate count .unnumbered →
      let location := ofSymbol ⟨place.spelling, file, line⟩
      location.className = place.typePath ++ place.membership.closing ++ "::" ++ place.method ++
          ClosureMark.spelled before ∧
        location.methodName = (ClosureMark.numbered index).name
  /-- The class is the type and the method the function exactly if the type stands there without
  brackets and all marks are of the old kind. -/
  exactly :
    let location := ofSymbol ⟨place.spelling, file, line⟩
    (location.className = place.typePath ∧ location.methodName = place.method) ↔
      place.membership = .plain ∧ ∀ mark ∈ place.marks, mark = .unnumbered

variable (place : CodePlace) (file : Option String) (line : Option Nat)

/-- If all marks are of the old kind, the class is the type with what stands behind it. -/
theorem names_of_unnumbered {count : Nat} (h : place.marks = List.replicate count .unnumbered) :
    let location := ofSymbol ⟨place.spelling, file, line⟩
    location.className = place.typePath ++ place.membership.closing ∧
      location.methodName = place.method := by
  intro location
  obtain ⟨hclass, hmethod⟩ := names_ofSymbol
    (place.membership.opening ++ place.typePath ++ place.membership.closing)
    (isLastName_method place) count file line
  rw [dropWhile_opening, ← h] at hclass
  rw [← h] at hmethod
  exact ⟨hclass, hmethod⟩

/-- Otherwise the last mark of the new kind is taken for the function. -/
theorem names_of_numbered {before : List ClosureMark} {index count : Nat}
    (h : place.marks = before ++ .numbered index :: List.replicate count .unnumbered) :
    let location := ofSymbol ⟨place.spelling, file, line⟩
    location.className = place.typePath ++ place.membership.closing ++ "::" ++ place.method ++
        ClosureMark.spelled before ∧
      location.methodName = (ClosureMark.numbered index).name := by
  intro location
  let rest := place.membership.closing ++ "::" ++ place.method ++ ClosureMark.spelled before
  obtain ⟨hclass, hmethod⟩ := names_ofSymbol
    (place.membership.opening ++ place.typePath ++ rest) (isLastName_numbered index) count
    file line
  rw [dropWhile_opening] at hclass
  have hspelling : place.membership.opening ++ place.typePath ++ rest ++ "::" ++
      (ClosureMark.numbered index).name ++
        ClosureMark.spelled (.replicate count .unnumbered) = place.spelling := by
    rw [CodePlace.spelling, h, ClosureMark.spelled_append]
    simp [ClosureMark.spelled, rest, String.append_assoc]
  rw [hspelling] at hclass hmethod
  exact ⟨by simpa [rest, String.append_assoc] using hclass, hmethod⟩

/-- A location names the type and the function of a place exactly if the type stands there without
brackets and all marks of closures are of the old kind. -/
theorem namesFunction : NamesFunction place file line where
  unnumbered := fun hall =>
    names_of_unnumbered place file line (List.eq_replicate_of_mem hall)
  numbered := fun _ _ _ => names_of_numbered place file line
  exactly := by
    intro location
    rcases ClosureMark.all_or_exists_numbered place.marks with
      ⟨count, hmarks⟩ | ⟨before, index, count, hmarks⟩
    · obtain ⟨hclass, hmethod⟩ := names_of_unnumbered place file line hmarks
      constructor
      · rintro ⟨hsame, -⟩
        have hlength := congrArg String.length (hclass.symm.trans hsame)
        rw [String.length_append] at hlength
        refine ⟨Membership.eq_plain_of_closing (by omega), ?_⟩
        rw [hmarks]
        exact fun _ => List.eq_of_mem_replicate
      · rintro ⟨hplain, -⟩
        rw [hplain, Membership.closing, String.append_empty] at hclass
        exact ⟨hclass, hmethod⟩
    · obtain ⟨hclass, -⟩ := names_of_numbered place file line hmarks
      constructor
      · rintro ⟨hsame, -⟩
        have hlength := congrArg String.length (hclass.symm.trans hsame)
        have hcolons : "::".length = 2 := rfl
        simp only [String.length_append, hcolons] at hlength
        omega
      · rintro ⟨-, hall⟩
        cases hall (.numbered index) (by simp [hmarks])

/-- A type in brackets leaves a bracket in the class, and a closure of the new kind is taken for the
function, also in the location of a caller. -/
theorem not_named_of_brackets :
    let inherent : CodePlace :=
      ⟨"app::Log", .inherent, "info", [], by simp, by simp, by simp, by simp⟩
    let closure : CodePlace :=
      ⟨"app::Log", .plain, "info", [.numbered 0], by simp, by simp, by simp, by simp⟩
    let callerAt (place : CodePlace) :=
      capture [[⟨"app::Sink::write", none, none⟩], [⟨place.spelling, some "src/log.rs", some 7⟩]]
        (some "app::Sink")
    inherent.spelling = "<app::Log>::info" ∧
      callerAt inherent = ⟨"app::Log>", "info", "log.rs", "7"⟩ ∧
      (callerAt inherent).className ≠ inherent.typePath ∧
      closure.spelling = "app::Log::info::\x7bclosure#0\x7d" ∧
      callerAt closure = ⟨"app::Log::info", "\x7bclosure#0\x7d", "log.rs", "7"⟩ ∧
      (callerAt closure).methodName ≠ closure.method := by
  decide +kernel

end Location

end EventSnapshot
