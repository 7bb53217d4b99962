import EventSnapshot.Proofs.Location.Caller
import EventSnapshot.Proofs.Wire.EitherName
import EventSnapshot.Proofs.Wire.Values

/-!
# Reports of failures and their callers

The report of a failure shows the call stack from the first function outside the library on. A
report is made on its own or along with an event, and each way goes through other functions of the
library and of `core`. None of them shows: a report says the same for the same error and the same
callers. Of the callers all are shown, also those further out that the library is called by again,
and a first one whose name only starts like that of the library.
-/

namespace EventSnapshot

/-! ## Errors -/

/-- An error, and the errors that it comes from. -/
inductive Fault where
  /-- An error that comes from no other. -/
  | root (text : String)
  /-- An error that comes from another. -/
  | dueTo (text : String) (source : Fault)

namespace Fault

/-- What the error says. -/
def text : Fault → String
  | .root text => text
  | .dueTo text _ => text

/-- The errors that the error comes from, each the source of the one before. -/
def sources : Fault → List Fault
  | .root _ => []
  | .dueTo _ source => source :: source.sources

/-- Some lines, and one more for each error that this one comes from, as one is found after the
other. -/
def explain : Fault → List String → List String
  | .root _, lines => lines
  | .dueTo _ source, lines => source.explain (lines ++ ["Caused by: " ++ source.text])

/-- The lines of the sources come in the order of the chain. -/
theorem explain_eq (fault : Fault) (lines : List String) : fault.explain lines =
    lines ++ fault.sources.map fun source => "Caused by: " ++ source.text := by
  induction fault generalizing lines with
  | root text => simp [explain, sources]
  | dueTo text source ih => rw [explain, ih, sources, List.map_cons, List.append_assoc]; rfl

end Fault

/-! ## Walks -/

/-- The symbols seen so far, and those of the frames ahead, until enough frames are visited. -/
def Stack.walk : Stack → Nat → List Symbol → List Symbol
  | [], _, seen => seen
  | frame :: outward, visited, seen =>
    let seen := seen ++ frame.filter fun symbol => !symbol.isUnwinder
    if visited + 1 < maxFrames then walk outward (visited + 1) seen else seen

/-- A walk that may still visit some frames sees the symbols of that many. -/
theorem Stack.walk_eq (stack : Stack) {visited : Nat} (hvisited : visited < maxFrames)
    (seen : List Symbol) : stack.walk visited seen =
      seen ++ (stack.take (maxFrames - visited)).flatten.filter fun symbol =>
        !symbol.isUnwinder := by
  induction stack generalizing visited seen with
  | nil => simp [walk]
  | cons frame outward ih =>
    obtain ⟨left, hleft⟩ : ∃ left, maxFrames - visited = left + 1 :=
      ⟨maxFrames - visited - 1, by omega⟩
    rw [walk, hleft, List.take_succ_cons, List.flatten_cons, List.filter_append]
    split
    · next hmore =>
      have hrest : maxFrames - (visited + 1) = left := by omega
      rw [ih hmore, hrest, List.append_assoc]
    · next hlast =>
      obtain rfl : left = 0 := by omega
      simp

namespace Failure

/-- The report of an error at some point of the program. -/
def ofFault (fault : Fault) (stack : Stack) : Failure :=
  report fault.text (fault.sources.map Fault.text) stack

/-- The report of an error, with its lines gathered one by one: what it says, what each of its
sources says, and the symbols of the stack from the first one outside the library on. -/
def gather (fault : Fault) (stack : Stack) : Failure :=
  ⟨fault.explain [fault.text] ++
    ((stack.walk 0 []).dropWhile Symbol.isLibrary).map Symbol.reportLine⟩

/-- The lines that are gathered are the report. -/
theorem gather_eq (fault : Fault) (stack : Stack) : gather fault stack = ofFault fault stack := by
  have hwalk : stack.walk 0 [] = stack.visible := stack.walk_eq (by decide) []
  rw [gather, hwalk, fault.explain_eq, ofFault, report, List.map_map]
  rfl

end Failure

/-! ## The library's own functions -/

/-- The function belongs to a root: less the brackets that open it, its path starts there. -/
def Symbol.HasRoot (root : String) (symbol : Symbol) : Prop :=
  ∃ brackets rest, symbol.function.toList =
    List.replicate brackets '<' ++ (root ++ "::").toList ++ rest

/-- The function belongs to the library, or to `core`, which the library calls through. -/
def Symbol.IsInternal (symbol : Symbol) : Prop :=
  symbol.HasRoot "core" ∨ symbol.HasRoot "log_event_snapshot"

/-- A function belongs to a root without brackets exactly if its path without the brackets that open
it starts there. -/
theorem Symbol.hasRoot_iff {root : String} (hroot : ∀ c ∈ (root ++ "::").toList, c ≠ '<')
    {symbol : Symbol} : symbol.HasRoot root ↔ (root ++ "::").toList <+: symbol.path := by
  constructor
  · rintro ⟨brackets, rest, hfunction⟩
    have hbrackets : ∀ c ∈ List.replicate brackets '<', decide (c = '<') = true := by
      intro c hc
      exact decide_eq_true (List.eq_of_mem_replicate hc)
    obtain ⟨first, others, hfirst⟩ : ∃ first others, (root ++ "::").toList = first :: others :=
      List.exists_cons_of_ne_nil (by simp)
    have hne : first ≠ '<' := hroot first (by rw [hfirst]; exact List.mem_cons_self)
    refine ⟨rest, ?_⟩
    rw [path, hfunction, List.append_assoc, List.dropWhile_append_of_pos hbrackets, hfirst,
      List.cons_append, List.dropWhile_cons_of_neg (by simpa using hne)]
  · rintro ⟨rest, hpath⟩
    let opening := symbol.function.toList.takeWhile (· = '<')
    have hopening : opening = List.replicate opening.length '<' := by
      apply List.eq_replicate_of_mem
      intro c hc
      simpa using List.mem_takeWhile_imp hc
    refine ⟨opening.length, rest, ?_⟩
    rw [← hopening, List.append_assoc, hpath, path, List.takeWhile_append_dropWhile]

/-- The functions of the library, and those of `core`, are known by where their paths start. -/
theorem Symbol.isInternal_iff {symbol : Symbol} : symbol.IsInternal ↔
    "core::".toList <+: symbol.path ∨ "log_event_snapshot::".toList <+: symbol.path := by
  rw [IsInternal, hasRoot_iff (by simp), hasRoot_iff (by simp)]
  rfl

/-- What is left out at the start of a stack are these functions. -/
theorem Symbol.isLibrary_iff {symbol : Symbol} : symbol.isLibrary ↔ symbol.IsInternal := by
  rw [isInternal_iff, ← isSome_stripStart?_iff, ← isSome_stripStart?_iff]
  simp [isLibrary, libraryPaths]

/-- A function of another root, the name of which only starts like that of the library or of `core`,
belongs to neither. -/
theorem Symbol.not_isInternal_of_lookAlike {symbol : Symbol} {root : String} {rest : List Char}
    (hroot : root ∈ libraryPaths) (hpath : symbol.path = root.toList ++ rest)
    (hrest : ¬"::".toList <+: rest) : ¬symbol.IsInternal := by
  rw [isInternal_iff, hpath]
  rcases List.mem_pair.mp hroot with rfl | rfl
  · simpa [List.cons_prefix_cons] using hrest
  · simpa [List.cons_prefix_cons] using hrest

/-! ## Reports made for a caller -/

/-- A stack on which a report is made for some callers: a walk comes to its end, and inward of the
callers, of which the first is not one of the library, only the library is at work. -/
structure Stack.IsCalledBy (stack : Stack) (callers : List Symbol) : Prop where
  /-- A walk visits all frames. -/
  length_le : stack.length ≤ 256
  /-- Inward of the callers there are functions of the library, of `core` and of the unwinder. -/
  inner : ∃ inner, stack.flatten = inner ++ callers ∧
    ∀ symbol ∈ inner, symbol.IsInternal ∨ "backtrace::".toList <+: symbol.function.toList
  /-- The first caller does not belong to the library. -/
  first : ∀ first ∈ callers.head?, ¬first.IsInternal
  /-- No caller is taken for the unwinder. -/
  callers : ∀ symbol ∈ callers, ¬"backtrace::".toList <+: symbol.function.toList

namespace Failure

variable {fault : Fault} {stack : Stack} {callers : List Symbol}

/-- What is left of the symbols that a walk sees, from the first one outside the library on, are the
callers. -/
theorem dropWhile_visible (h : stack.IsCalledBy callers) :
    stack.visible.dropWhile Symbol.isLibrary = callers := by
  obtain ⟨inner, hstack, hinner⟩ := h.inner
  have hwhole : stack.take maxFrames = stack := List.take_of_length_le h.length_le
  have hcallers : (callers.filter fun symbol => !symbol.isUnwinder) = callers := by
    rw [List.filter_eq_self]
    intro symbol hsymbol
    have hnot := h.callers symbol hsymbol
    rw [← Symbol.isUnwinder_iff] at hnot
    simpa using hnot
  have hlibrary : ∀ symbol ∈ inner.filter fun symbol => !symbol.isUnwinder, symbol.isLibrary := by
    intro symbol hsymbol
    obtain ⟨hmem, hkept⟩ := List.mem_filter.mp hsymbol
    rcases hinner symbol hmem with hinternal | hunwinder
    · exact Symbol.isLibrary_iff.mpr hinternal
    · rw [← Symbol.isUnwinder_iff] at hunwinder
      simp [hunwinder] at hkept
  rw [Stack.visible, hwhole, hstack, List.filter_append, hcallers,
    List.dropWhile_append_of_pos hlibrary]
  cases hfirst : callers with
  | nil => rfl
  | cons first others =>
    have hnot := h.first first (by rw [hfirst]; rfl)
    rw [← Symbol.isLibrary_iff] at hnot
    exact List.dropWhile_cons_of_neg hnot

/-- The report of an error that is made for some callers has a line for the error, for each of its
sources and for each caller. -/
theorem lines_ofFault (h : stack.IsCalledBy callers) : (ofFault fault stack).lines =
    fault.text :: fault.sources.map (fun source => "Caused by: " ++ source.text) ++
      callers.map Symbol.reportLine := by
  simp only [ofFault, report, dropWhile_visible h, List.map_map]
  rfl

/-- For the same callers, the report of an error is the same. -/
theorem ofFault_eq {other : Stack} (h : stack.IsCalledBy callers)
    (hother : other.IsCalledBy callers) : ofFault fault other = ofFault fault stack := by
  have hlines : (ofFault fault other).lines = (ofFault fault stack).lines :=
    (lines_ofFault hother).trans (lines_ofFault h).symm
  exact congrArg mk hlines

end Failure

/-- An event that comes back of what was encoded has the failure of the one that was encoded. -/
theorem Wire.failure_of_decode {σ : Type} [Resolver σ] {source : σ} {producer reader : Producer}
    {event decoded : Event} {thread : Thread} {bytes : ByteArray}
    (hencode : encode producer event thread = .ok bytes)
    (hread : (decode reader source bytes).value = .ok decoded ∨
      (decodeCompatible reader source bytes).value = .ok decoded) :
    decoded.failure = event.failure := by
  have hdecode := decode_value_of_encode_of_read hencode hread
  obtain ⟨entries, rfl⟩ := exists_ofRecord_of_decode source hencode hdecode
  change (event.failure.map (·.lines)).map Failure.mk = event.failure
  cases event.failure <;> rfl

namespace Failure

/-- What the report of an error is that is made for some callers. -/
structure ShowsCallers (fault : Fault) (stack : Stack) (callers : List Symbol) : Prop where
  /-- It is what is gathered line by line. -/
  gathered : gather fault stack = ofFault fault stack
  /-- It has a line for the error, one for each of its sources and one for each caller, in that
  order, and no others. -/
  lines : (ofFault fault stack).lines =
    fault.text :: fault.sources.map (fun source => "Caused by: " ++ source.text) ++
      callers.map Symbol.reportLine
  /-- It is the same on every stack on which it is made for these callers. -/
  same : ∀ other : Stack, other.IsCalledBy callers → ofFault fault other = ofFault fault stack
  /-- An event that is made for the same callers comes with the same report. -/
  event : ∀ other : Stack, other.IsCalledBy callers →
    ∀ wrapper logger timestamp level message,
      (Event.new wrapper logger timestamp level message (some (ofFault fault other))).failure =
        some (ofFault fault stack)
  /-- Only functions of the library and of `core` are left out. -/
  leftOut : ∀ symbol : Symbol, symbol.isLibrary ↔ symbol.IsInternal
  /-- A function of another root, the name of which only starts like theirs, is none of those. -/
  lookAlike : ∀ symbol : Symbol, ∀ root ∈ libraryPaths, ∀ rest,
    symbol.path = root.toList ++ rest → ¬"::".toList <+: rest → ¬symbol.IsInternal
  /-- It stays as it is when an event is encoded and decoded. -/
  kept : ∀ {σ : Type} [Resolver σ] (source : σ) producer reader (event decoded : Event) thread
    bytes, event.failure = some (ofFault fault stack) →
    Wire.encode producer event thread = .ok bytes →
    (Wire.decode reader source bytes).value = .ok decoded ∨
      (Wire.decodeCompatible reader source bytes).value = .ok decoded →
    decoded.failure = some (ofFault fault stack)

/-- The report of an error depends on the error and on the callers it is made for. -/
theorem showsCallers (fault : Fault) (h : stack.IsCalledBy callers) :
    ShowsCallers fault stack callers where
  gathered := gather_eq fault stack
  lines := lines_ofFault h
  same := fun _ => ofFault_eq h
  event := by
    intro other hother wrapper logger timestamp level message
    exact congrArg some (ofFault_eq h hother)
  leftOut := fun _ => Symbol.isLibrary_iff
  lookAlike := fun _ _ hroot _ => Symbol.not_isInternal_of_lookAlike hroot
  kept := by
    intro σ _ source producer reader event decoded thread bytes hfailure hencode hread
    rw [← hfailure]
    exact Wire.failure_of_decode hencode hread

/-- A report made on its own and one made along with an event, for a caller with a look-alike name
that was called through the library. -/
theorem showsCallers_lookAlike :
    let callers : List Symbol :=
      [⟨"log_event_snapshot_ext::Wrapper::info", some "src/ext.rs", some 7⟩,
        ⟨"core::ops::function::FnOnce::call_once", none, none⟩,
        ⟨"<log_event_snapshot::Worker>::run", some "src/worker.rs", none⟩,
        ⟨"app::main", some "src/main.rs", some 3⟩]
    let unwinder : Symbol := ⟨"backtrace::trace", none, none⟩
    let report : Symbol := ⟨"<log_event_snapshot::Failure>::report", none, none⟩
    let alone : Stack := [[unwinder], [report]] ++ callers.map ([·])
    let along : Stack := [[unwinder], [report, ⟨"<core::option::Option<_>>::map", none, none⟩],
      [⟨"<log_event_snapshot::Event>::new", none, none⟩]] ++ callers.map ([·])
    let fault := Fault.dueTo "request failed" (.dueTo "connection lost" (.root "reset by peer"))
    alone.IsCalledBy callers ∧ along.IsCalledBy callers ∧
      ofFault fault along = ofFault fault alone ∧
      (ofFault fault alone).lines =
        ["request failed", "Caused by: connection lost", "Caused by: reset by peer",
          "\tat log_event_snapshot_ext::Wrapper::info(src/ext.rs:7)",
          "\tat core::ops::function::FnOnce::call_once(Unknown Source)",
          "\tat <log_event_snapshot::Worker>::run(Unknown Source)",
          "\tat app::main(src/main.rs:3)"] := by
  intro callers unwinder report alone along fault
  have hfirst : ∀ first ∈ callers.head?, ¬first.IsInternal := by
    rintro _ ⟨⟩
    rw [← Symbol.isLibrary_iff]
    decide
  have hcallers : ∀ symbol ∈ callers, ¬"backtrace::".toList <+: symbol.function.toList := by
    decide
  have hinternal : ∀ symbol : Symbol, symbol.isLibrary ∨ symbol.isUnwinder →
      symbol.IsInternal ∨ "backtrace::".toList <+: symbol.function.toList := by
    intro symbol
    rw [Symbol.isLibrary_iff, Symbol.isUnwinder_iff]
    exact id
  have halone : alone.IsCalledBy callers := by
    refine ⟨by decide, ⟨[unwinder, report], rfl, fun symbol hsymbol => hinternal symbol ?_⟩,
      hfirst, hcallers⟩
    revert symbol
    decide
  have halong : along.IsCalledBy callers := by
    refine ⟨by decide, ⟨[unwinder, report, _, _], rfl, fun symbol hsymbol => hinternal symbol ?_⟩,
      hfirst, hcallers⟩
    revert symbol
    decide
  have hshows := showsCallers fault halone
  exact ⟨halone, halong, hshows.same along halong, hshows.lines⟩

end Failure

end EventSnapshot
