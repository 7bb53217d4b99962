import EventSnapshot.Location

/-!
# The caller of a wrapper

The location of an event is the caller of the logging wrapper: of the symbols that a walk sees, the
one right outward of the outermost symbol in the wrapper's scope. That settles a wrapper that is
entered again further in, a sibling whose name only starts with that of the wrapper, and a walk that
ends inside the wrapper.
-/

namespace EventSnapshot

/-! ## Scopes -/

/-- A list starts as asked exactly if it is that start and what is left. -/
theorem stripStart?_eq_some_iff {α : Type} [DecidableEq α] {start whole rest : List α} :
    stripStart? start whole = some rest ↔ whole = start ++ rest := by
  refine ⟨eq_append_of_stripStart?, ?_⟩
  rintro rfl
  induction start with
  | nil => rfl
  | cons a start ih => rw [List.cons_append, stripStart?, if_pos rfl, ih]

/-- A list starts as asked exactly if something is left of it. -/
theorem isSome_stripStart?_iff {α : Type} [DecidableEq α] {start whole : List α} :
    (stripStart? start whole).isSome ↔ start <+: whole := by
  rw [Option.isSome_iff_exists]
  simp only [stripStart?_eq_some_iff]
  exact exists_congr fun _ => eq_comm

/-- The unwinder's own functions are those of its crate. -/
theorem Symbol.isUnwinder_iff {symbol : Symbol} :
    symbol.isUnwinder ↔ "backtrace::".toList <+: symbol.function.toList :=
  isSome_stripStart?_iff

/-- A walk sees the symbols of the innermost 256 frames, less the unwinder's own. -/
theorem Stack.visible_eq (stack : Stack) : stack.visible =
    (stack.take 256).flatten.filter fun symbol =>
      ¬"backtrace::".toList <+: symbol.function.toList := by
  apply List.filter_congr
  intro symbol _
  rw [Bool.eq_iff_iff, decide_eq_true_iff, ← Symbol.isUnwinder_iff, Bool.not_eq_true']
  exact Bool.eq_false_iff

/-- A path may end here or go on with a double colon, a space or a closing bracket, but the name in
front is not continued. -/
def AtBoundary (rest : List Char) : Prop :=
  rest = [] ∨ [':', ':'] <+: rest ∨ [' '] <+: rest ∨ ['>'] <+: rest

/-- The path of the function, less the brackets that open it, is the bound, or goes on behind it at
a boundary. -/
def Symbol.LiesIn (bound : String) (symbol : Symbol) : Prop :=
  ∃ rest, symbol.path = bound.toList ++ rest ∧ AtBoundary rest

/-- The functions in scope are those that lie in the bound. -/
theorem Symbol.inScope_iff {bound : String} {symbol : Symbol} :
    symbol.inScope bound ↔ symbol.LiesIn bound := by
  rw [inScope, LiesIn]
  cases hstrip : stripStart? bound.toList symbol.path with
  | none =>
    simp only [Bool.false_eq_true, false_iff]
    rintro ⟨rest, hpath, -⟩
    rw [stripStart?_eq_some_iff.mpr hpath] at hstrip
    cases hstrip
  | some rest =>
    have hpath : ∀ other, symbol.path = bound.toList ++ other ↔ rest = other := by
      intro other
      rw [stripStart?_eq_some_iff.mp hstrip, List.append_right_inj]
    simp only [hpath, exists_eq_left', AtBoundary]
    cases rest with
    | nil => simp
    | cons c rest => cases rest <;> simp [List.cons_prefix_cons] <;> grind

/-- A function whose name goes on behind the bound does not lie in it. -/
theorem Symbol.not_inScope_of_sibling {bound : String} {symbol : Symbol} {c : Char}
    {rest : List Char} (hpath : symbol.path = bound.toList ++ c :: rest)
    (hc : c ∉ [':', ' ', '>']) : ¬symbol.inScope bound := by
  rw [inScope_iff]
  rintro ⟨other, hother, hboundary⟩
  rw [hpath, List.append_right_inj] at hother
  subst hother
  simp [AtBoundary, List.cons_prefix_cons] at hboundary hc
  grind

/-! ## The outermost symbol in scope -/

section AfterLast

variable {α : Type} {p : α → Bool} {list rest : List α}

/-- Nothing follows a last element if no element satisfies the condition. -/
theorem afterLast_eq_none_iff : afterLast p list = none ↔ ∀ a ∈ list, ¬p a := by
  induction list with
  | nil => simp [afterLast]
  | cons first list ih =>
    rw [afterLast, List.forall_mem_cons, ← ih]
    cases hlater : afterLast p list with
    | none => cases hp : p first <;> simp
    | some outward => simp

/-- A list that splits at an element that satisfies the condition, while none behind it does, has
the rest behind its last element. -/
theorem afterLast_append_cons (inner : List α) {last : α} (hlast : p last)
    (hrest : ∀ a ∈ rest, ¬p a) : afterLast p (inner ++ last :: rest) = some rest := by
  induction inner with
  | nil =>
    rw [List.nil_append, afterLast, afterLast_eq_none_iff.mpr hrest]
    exact if_pos hlast
  | cons first inner ih => rw [List.cons_append, afterLast, ih]

/-- What follows the last element splits off behind one that satisfies the condition, and no element
of it does. -/
theorem exists_eq_append_of_afterLast (h : afterLast p list = some rest) :
    ∃ inner last, list = inner ++ last :: rest ∧ p last ∧ ∀ a ∈ rest, ¬p a := by
  induction list with
  | nil => cases h
  | cons first list ih =>
    rw [afterLast] at h
    cases hlater : afterLast p list with
    | none =>
      rw [hlater, Option.ite_none_right_eq_some] at h
      obtain ⟨hfirst, hrest⟩ := h
      obtain rfl : list = rest := Option.some.inj hrest
      exact ⟨[], first, rfl, hfirst, afterLast_eq_none_iff.mp hlater⟩
    | some outward =>
      rw [hlater] at h
      obtain ⟨inner, last, rfl, hlast, hrest⟩ := ih (hlater.trans h)
      exact ⟨first :: inner, last, rfl, hlast, hrest⟩

end AfterLast

/-! ## Callers -/

/-- Of some symbols, the innermost first, this is the caller of the wrapper: it is right outward of
a symbol in scope, and neither it nor any symbol outward of it is in scope. -/
def IsCaller (bound : String) (symbols : List Symbol) (caller : Symbol) : Prop :=
  ∃ inner callee outer, symbols = inner ++ callee :: caller :: outer ∧ callee.LiesIn bound ∧
    ¬caller.LiesIn bound ∧ ∀ symbol ∈ outer, ¬symbol.LiesIn bound

variable {bound : String} {symbols : List Symbol} {caller : Symbol}

/-- The caller stands first in what follows the last symbol in scope. -/
theorem isCaller_iff : IsCaller bound symbols caller ↔
    ∃ outer, afterLast (Symbol.inScope bound) symbols = some (caller :: outer) := by
  constructor
  · rintro ⟨inner, callee, outer, rfl, hcallee, hcaller, houter⟩
    refine ⟨outer, afterLast_append_cons inner (Symbol.inScope_iff.mpr hcallee) ?_⟩
    simp only [Symbol.inScope_iff, List.forall_mem_cons]
    exact ⟨hcaller, houter⟩
  · rintro ⟨outer, hafter⟩
    obtain ⟨inner, callee, hsymbols, hcallee, hrest⟩ := exists_eq_append_of_afterLast hafter
    simp only [Symbol.inScope_iff, List.forall_mem_cons] at hcallee hrest
    exact ⟨inner, callee, outer, hsymbols, hcallee, hrest.1, hrest.2⟩

/-- The wrapper has no caller exactly if no symbol is in its scope or the outermost one is. -/
theorem not_exists_isCaller_iff : (¬∃ caller, IsCaller bound symbols caller) ↔
    (∀ symbol ∈ symbols, ¬symbol.LiesIn bound) ∨
      ∃ outermost ∈ symbols.getLast?, outermost.LiesIn bound := by
  simp only [isCaller_iff]
  cases hafter : afterLast (Symbol.inScope bound) symbols with
  | none =>
    have hnone := afterLast_eq_none_iff.mp hafter
    simp only [Symbol.inScope_iff] at hnone
    simpa using .inl hnone
  | some rest =>
    obtain ⟨inner, callee, rfl, hcallee, hrest⟩ := exists_eq_append_of_afterLast hafter
    simp only [Symbol.inScope_iff] at hcallee hrest
    cases rest with
    | nil => simp [hcallee]
    | cons caller outer =>
      have houtermost : ∀ outermost ∈ (inner ++ callee :: caller :: outer).getLast?,
          ¬outermost.LiesIn bound := by
        intro outermost hlast
        rw [List.getLast?_append, List.getLast?_cons_cons, List.getLast?_cons, Option.some_or,
          ← List.getLast?_cons] at hlast
        exact hrest outermost (List.mem_of_getLast? hlast)
      constructor
      · intro hno
        exact absurd ⟨caller, outer, rfl⟩ hno
      · rintro (hnone | ⟨outermost, hlast, hscope⟩)
        · exact absurd hcallee (hnone callee (by simp))
        · exact absurd hscope (houtermost outermost hlast)

namespace Location

/-- What the location of a request that came through a wrapper is, on some stack. -/
structure ReportsCaller (stack : Stack) (bound : Option String) : Prop where
  /-- The symbols that count are those of the innermost 256 frames, less the unwinder's own. -/
  visible : stack.visible =
    (stack.take 256).flatten.filter fun symbol => ¬"backtrace::".toList <+: symbol.function.toList
  /-- The caller of the wrapper is reported. -/
  found : ∀ wrapper ∈ bound, wrapper ≠ "" → ∀ caller, IsCaller wrapper stack.visible caller →
    capture stack bound = ofSymbol caller
  /-- If there is no bound or no caller, nothing is known. -/
  unknown : (∀ wrapper ∈ bound, wrapper ≠ "" → ¬∃ caller, IsCaller wrapper stack.visible caller) →
    capture stack bound = .unknown
  /-- There is no caller exactly if no symbol is in scope or the outermost one is. -/
  missing : ∀ wrapper, (¬∃ caller, IsCaller wrapper stack.visible caller) ↔
    (∀ symbol ∈ stack.visible, ¬symbol.LiesIn wrapper) ∨
      ∃ outermost ∈ stack.visible.getLast?, outermost.LiesIn wrapper
  /-- Frames further out make no difference. -/
  bounded : ∀ other : Stack, other.take 256 = stack.take 256 →
    capture other bound = capture stack bound
  /-- In scope are the functions that are the bound or go on behind it at a boundary. -/
  scope : ∀ (wrapper : String) (symbol : Symbol), symbol.inScope wrapper ↔ symbol.LiesIn wrapper
  /-- A function whose name goes on behind the bound is not in scope. -/
  sibling : ∀ (wrapper : String) (symbol : Symbol) (c : Char) (rest : List Char),
    symbol.path = wrapper.toList ++ c :: rest → c ∉ [':', ' ', '>'] → ¬symbol.inScope wrapper

/-- On every stack and for every bound, the caller of the wrapper is reported if it has one among
the symbols that a walk sees, and otherwise nothing is known. -/
theorem reportsCaller (stack : Stack) (bound : Option String) : ReportsCaller stack bound where
  visible := stack.visible_eq
  found := by
    intro wrapper hbound hwrapper caller hcaller
    obtain ⟨outer, hafter⟩ := isCaller_iff.mp hcaller
    obtain rfl : bound = some wrapper := hbound
    simp only [capture, if_neg hwrapper, hafter]
  unknown := by
    intro hnone
    unfold capture
    split
    · rfl
    · next wrapper =>
      split
      · rfl
      · next hwrapper =>
        split
        · next caller outer hafter =>
          exact absurd ⟨caller, isCaller_iff.mpr ⟨outer, hafter⟩⟩ (hnone wrapper rfl hwrapper)
        · rfl
  missing := fun wrapper => not_exists_isCaller_iff
  bounded := by
    intro other hsame
    have hvisible : other.visible = stack.visible := by
      rw [Stack.visible, Stack.visible, maxFrames, hsame]
    simp only [capture, hvisible]
  scope := fun _ _ => Symbol.inScope_iff
  sibling := fun _ _ _ _ => Symbol.not_inScope_of_sibling

/-- A wrapper that is entered twice, with a sibling outward of it. -/
example : capture [[⟨"app::Log::write", none, none⟩], [⟨"app::retry", none, none⟩],
      [⟨"<app::Log as app::Sink>::send", none, none⟩],
      [⟨"app::Logger::run", some "src/run.rs", some 3⟩], [⟨"main", none, none⟩]]
    (some "app::Log") = ⟨"app::Logger", "run", "run.rs", "3"⟩ := by
  decide +kernel

end Location

end EventSnapshot
