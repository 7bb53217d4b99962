import EventSnapshot.Proofs.Event.Independence
import EventSnapshot.Proofs.Wire.Writing

/-!
# Rendering once

The message of an event is rendered for the first access that needs it, and what this gives is kept,
be it a text or what stands for an object that could not be rendered. Whether an object is asked for
its text again cannot be seen from the answers as long as it says the same each time. Here an event
is therefore looked at together with a count of how often the renderer, or the object itself, was
asked. The first time it gives what the event says, and later it may give anything. Every access
gives the same answers as before, so that nothing is asked twice and nothing that an object wrote
before it failed is ever seen.
-/

namespace EventSnapshot

/-- The text that is given, if it is given as a whole. -/
def Display.text? : Display → Option String
  | .text s => some s
  | .failed _ | .crashed _ => none

/-- Some visit needs the rendered message. -/
def NeedRendered (visits : List Visit) : Prop :=
  ∃ visit ∈ visits, Slot.rendered ∈ visit.access.slots

instance (visits : List Visit) : Decidable (NeedRendered visits) :=
  inferInstanceAs (Decidable (∃ visit ∈ visits, Slot.rendered ∈ visit.access.slots))

/-- An event, and what has come of rendering its message so far. -/
structure Rendering where
  /-- The event. -/
  event : Event
  /-- How often the renderer, or the object itself, was asked for a text. -/
  runs : Nat
  /-- What was reported, in order. -/
  notices : List Notice

namespace Event

/-- What the renderer, or the object itself if there is none, gives when it has been asked some
times. -/
def attempt (event : Event) (later : Nat → Display) (object : MessageObject) :
    Nat → Option String
  | 0 => object.text? event.renderer
  | runs + 1 => (later runs).text?

/-- How often the renderer, or the object itself, is asked when the rendered message is read. -/
def renderRuns (event : Event) : Nat :=
  match event.rendered, event.message with
  | none, some (.object _) => 1
  | _, _ => 0

/-- An event before anything is done with it. -/
def unread (event : Event) : Rendering := ⟨event, 0, []⟩

end Event

namespace Rendering

variable (later : Nat → Display)

/-- Renders a message. Only an object is asked, and only a failure is reported. -/
def render (state : Rendering) : Message → String × Rendering
  | .text s => (s, state)
  | .object object =>
    let asked := { state with runs := state.runs + 1 }
    match state.event.attempt later object state.runs with
    | some s => (s, asked)
    | none =>
      (object.placeholder,
        { asked with notices := state.notices ++ [.renderingFailed object.typeName] })

/-- Reads the rendered message. If it is not captured, it is rendered and kept. -/
def read (state : Rendering) : Option String × Rendering :=
  match state.event.rendered, state.event.message with
  | some text, _ => (text, state)
  | none, none => (none, { state with event := state.event.withRendered none })
  | none, some message =>
    let rendered := state.render later message
    (some rendered.1,
      { rendered.2 with event := rendered.2.event.withRendered (some rendered.1) })

/-- Captures everything that depends on the thread, the location excepted. -/
def prepare (state : Rendering) (thread : Thread) : Rendering :=
  let named := { state with event := state.event.captureThreadName thread }
  let asked := (named.read later).2
  { asked with event := (asked.event.captureNested thread).captureMapped thread }

/-- Appends the record of the event to an output. The message is read once more for it. -/
def write (state : Rendering) (thread : Thread) (producer : Producer) (room : Option Nat)
    (output : ByteArray) : Answer × Rendering :=
  let asked := (state.prepare later thread).read later
  let record := { asked.2.event.record thread with message := asked.1 }
  let written := Wire.write room output (record.pieces producer)
  (.written written.1 written.2, asked.2)

/-- What comes of an access. Those that do not need the rendered message ask for nothing. -/
def serve (state : Rendering) (thread : Thread) : Access → Answer × Rendering
  | .message =>
    let asked := state.read later
    (.text asked.1, asked.2)
  | .prepare => (.nothing, state.prepare later thread)
  | .write producer room output => state.write later thread producer room output
  | access =>
    let reply := state.event.serve thread access
    (reply.answer, { state with event := reply.event, notices := state.notices ++ reply.notices })

/-- What comes of a course of visits. -/
def after (state : Rendering) (visits : List Visit) : Rendering :=
  visits.foldl (fun state visit => (state.serve later visit.thread visit.access).2) state

/-- Nothing was asked as long as the rendered message is not captured. -/
def Steady (state : Rendering) : Prop := state.event.rendered = none → state.runs = 0

end Rendering

namespace Event

variable {event : Event}

/-- Once the rendered message is captured, nothing is asked for it any more. -/
theorem renderRuns_visited (visit : Visit) : (event.visited visit).renderRuns =
    if .rendered ∈ visit.access.slots then 0 else event.renderRuns := by
  obtain ⟨thread, access⟩ := visit
  cases access <;> rfl

end Event

namespace Rendering

variable (later : Nat → Display) {state : Rendering}

/-- Whoever reads the rendered message gets the text of the event, which is kept. -/
theorem read_eq (h : state.Steady) : state.read later =
    (state.event.renderedMessage, ⟨state.event.captureRendered,
      state.runs + state.event.renderRuns, state.notices ++ state.event.renderNotices⟩) := by
  obtain ⟨event, runs, notices⟩ := state
  simp only [read]
  cases hrendered : event.rendered with
  | some text =>
    have hcaptured : event.captureRendered = event :=
      Event.captureRendered_eq (by simp [Event.captured, hrendered])
    simp [hcaptured, Event.renderedMessage, Event.renderRuns, Event.renderNotices, hrendered]
  | none =>
    obtain rfl : runs = 0 := h hrendered
    have hkept {text : Option String} (htext : event.renderedMessage = text) :
        event.captureRendered = event.withRendered text := by
      rw [Event.captureRendered, htext, Event.withRendered]
    cases hmessage : event.message with
    | none =>
      have htext : event.renderedMessage = none := by
        simp [Event.renderedMessage, hrendered, hmessage]
      simp [hkept htext, htext, Event.renderRuns, Event.renderNotices, hrendered, hmessage]
    | some message =>
      have htext : event.renderedMessage = some (message.render event.renderer) := by
        simp [Event.renderedMessage, hrendered, hmessage]
      have hnotices : event.renderNotices = message.renderNotices event.renderer := by
        simp [Event.renderNotices, hrendered, hmessage]
      rw [hkept htext, htext, hnotices]
      cases message with
      | text s =>
        simp [render, Event.renderRuns, hmessage, Message.render, Message.renderNotices]
      | object object =>
        have hruns : event.renderRuns = 1 := by
          simp [Event.renderRuns, hrendered, hmessage]
        simp only [render, Event.attempt, Message.render, Message.renderNotices, hruns]
        cases object.text? event.renderer <;> simp

/-- Preparing an event captures the same as before, and renders its message if that is due. -/
theorem prepare_eq (h : state.Steady) (thread : Thread) : state.prepare later thread =
    ⟨state.event.prepare thread, state.runs + state.event.renderRuns,
      state.notices ++ state.event.renderNotices⟩ := by
  let named := { state with event := state.event.captureThreadName thread }
  have hnamed : named.Steady := h
  have hread : (named.read later).2 = ⟨named.event.captureRendered,
      state.runs + state.event.renderRuns, state.notices ++ state.event.renderNotices⟩ := by
    rw [read_eq later hnamed]
    rfl
  simp only [prepare, named] at hread ⊢
  rw [hread]
  rfl

/-- Writing an event gives the same as before, and renders its message if that is due. The message
is captured by then, so that it is not asked for again for the record. -/
theorem write_eq (h : state.Steady) (thread : Thread) (producer : Producer) (room : Option Nat)
    (output : ByteArray) :
    let written := Wire.writeEvent producer room output state.event thread
    state.write later thread producer room output = (.written written.output written.result,
      ⟨written.event, state.runs + state.event.renderRuns,
        state.notices ++ state.event.renderNotices⟩) := by
  intro written
  let prepared : Rendering := ⟨state.event.prepare thread, state.runs + state.event.renderRuns,
    state.notices ++ state.event.renderNotices⟩
  have hprepared : prepared.Steady := fun hrendered => nomatch hrendered
  have hread : prepared.read later = (prepared.event.renderedMessage, prepared) := by
    have hruns : prepared.event.renderRuns = 0 := rfl
    have hnotices : prepared.event.renderNotices = [] := rfl
    rw [read_eq later hprepared, hruns, hnotices, List.append_nil]
    rfl
  rw [write, prepare_eq later h]
  change (let asked := prepared.read later; _) = _
  rw [hread]
  rfl

/-- An access gives the same as before, and renders the message if it needs that and it is due. -/
theorem serve_eq (h : state.Steady) (visit : Visit) :
    let reply := state.event.serve visit.thread visit.access
    state.serve later visit.thread visit.access = (reply.answer,
      ⟨reply.event,
        state.runs + (if Slot.rendered ∈ visit.access.slots then state.event.renderRuns else 0),
        state.notices ++ reply.notices⟩) := by
  obtain ⟨thread, access⟩ := visit
  cases access with
  | message =>
    rw [serve, read_eq later h]
    rfl
  | prepare =>
    rw [serve, prepare_eq later h]
    rfl
  | write producer room output => exact write_eq later h thread producer room output
  | _ => rfl

/-- As long as the rendered message is not captured, nothing was asked: this stays so. -/
theorem Steady.serve (h : state.Steady) (visit : Visit) :
    (state.serve later visit.thread visit.access).2.Steady := by
  rw [serve_eq later h]
  intro hrendered
  have hvisited : (state.event.visited visit).rendered = none := hrendered
  rw [Event.rendered_visited, Option.or_eq_none_iff] at hvisited
  obtain ⟨hbefore, hslot⟩ := hvisited
  have hslot : Slot.rendered ∉ visit.access.slots := by
    intro hmem
    simp [hmem] at hslot
  simp [hslot, h hbefore]

/-! ## Courses of visits -/

/-- A course of visits makes the same of an event as before, and renders its message at most for the
first visit that needs it. -/
theorem after_eq (h : state.Steady) (visits : List Visit) : state.after later visits =
    ⟨state.event.after visits,
      state.runs + (if NeedRendered visits then state.event.renderRuns else 0),
      state.notices ++ state.event.reports visits⟩ := by
  induction visits generalizing state with
  | nil => simp [after, NeedRendered, Event.reports]
  | cons visit visits ih =>
    have hneed : NeedRendered (visit :: visits) ↔
        Slot.rendered ∈ visit.access.slots ∨ NeedRendered visits := List.exists_mem_cons_iff ..
    have hruns : (state.runs +
          if Slot.rendered ∈ visit.access.slots then state.event.renderRuns else 0) +
        (if NeedRendered visits then (state.event.visited visit).renderRuns else 0) =
        state.runs + if NeedRendered (visit :: visits) then state.event.renderRuns else 0 := by
      rw [Event.renderRuns_visited]
      by_cases hslot : Slot.rendered ∈ visit.access.slots
      · simp [hneed, hslot]
      · simp [hneed, hslot]
    have hnotices := List.append_assoc state.notices
      (state.event.serve visit.thread visit.access).notices
      ((state.event.visited visit).reports visits)
    rw [after, List.foldl_cons, ← after, ih (h.serve later visit), serve_eq later h, Event.reports,
      ← hruns, ← hnotices]
    rfl

/-- As long as the rendered message is not captured, nothing was asked, whatever else was done. -/
theorem Steady.after (h : state.Steady) (visits : List Visit) :
    (state.after later visits).Steady := by
  induction visits generalizing state with
  | nil => exact h
  | cons visit visits ih => exact ih (h.serve later visit)

end Rendering

namespace Event

variable {event : Event}

/-! ## Messages in words -/

/-- An object that fails after it wrote something, and would give a text if it was asked again. -/
example :
    let event := Event.new none none 1 .info (some (.object ⟨"Reply", .failed "par"⟩)) none
    let later : Nat → Display := fun _ => .text "partial"
    let state := event.unread.after later [⟨.new none, .prepare⟩, ⟨.new none, .message⟩]
    (state.serve later (.new none) .message).1 =
        .text (some "[Reply: message rendering failed]") ∧
      state.runs = 1 ∧ state.notices = [.renderingFailed "Reply"] := ⟨rfl, rfl, rfl⟩

end Event

end EventSnapshot
