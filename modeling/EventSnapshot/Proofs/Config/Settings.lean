import EventSnapshot.Config
import EventSnapshot.Proofs.Text.ByteOrder
import EventSnapshot.Proofs.Text.Scalars

/-!
# Settings from the environment

Each setting has one variable of its own, which is all that it depends on. If the variable is text
that spells a value of the setting, blanks around it aside, then that is the setting; if it is
unset, is no text or spells nothing, the setting is the default. One of the settings is not read the
way that the others are, and follows the same rule.
-/

namespace EventSnapshot

/-- Without the blanks around it, the text spells the value. -/
def Text.Holds {α : Type} (Spells : String → α → Prop) (text : String) (value : α) : Prop :=
  ∃ inner, TrimsTo text inner ∧ Spells inner value

/-- A text holds what its trimmed form spells. -/
theorem Text.holds_iff {α : Type} {Spells : String → α → Prop} {text : String} {value : α} :
    Holds Spells text value ↔ Spells (trim text) value := by
  simp only [Holds, trimsTo_iff, exists_eq_left]

/-- A variable has a text exactly if it is set to the bytes of that text. -/
theorem Environment.text?_eq_some_iff {environment : Environment} {name text : String} :
    environment.text? name = some text ↔ environment.values.get? name = some text.toUTF8 := by
  simp only [text?, Option.bind_eq_some_iff, Text.fromUTF8?_eq_some_iff, exists_eq_right]

namespace Config

/-- How a setting follows from its variable. -/
structure Follows {α : Type} (setting : Environment → α) (name : String)
    (Spells : String → α → Prop) (default : α) : Prop where
  /-- If the variable is a text that holds a value, that is the setting. -/
  held : ∀ environment text value, environment.values.get? name = some text.toUTF8 →
    Text.Holds Spells text value → setting environment = value
  /-- In every other case the setting is the default. -/
  otherwise : ∀ environment,
    (∀ text value, environment.values.get? name = some text.toUTF8 →
      ¬Text.Holds Spells text value) → setting environment = default
  /-- No other variable makes a difference. -/
  alone : ∀ environment other, other.values.get? name = environment.values.get? name →
    setting other = setting environment

/-- A setting that is read from the text of its variable, the default aside, follows from it if the
texts are read as what they hold. -/
theorem follows_of_read {α : Type} {setting : Environment → α} {name : String}
    {Spells : String → α → Prop} {default : α} {read : String → Option α}
    (hsetting : ∀ environment,
      setting environment = ((environment.text? name).bind read).getD default)
    (hread : ∀ text value, read text = some value ↔ Text.Holds Spells text value) :
    Follows setting name Spells default where
  held := by
    intro environment text value htext hholds
    rw [hsetting, Environment.text?_eq_some_iff.mpr htext, Option.bind_some,
      (hread text value).mpr hholds, Option.getD_some]
  otherwise := by
    intro environment hnone
    rw [hsetting]
    cases hvalue : (environment.text? name).bind read with
    | none => rfl
    | some value =>
      obtain ⟨text, htext, htaken⟩ := Option.bind_eq_some_iff.mp hvalue
      exact absurd ((hread text value).mp htaken)
        (hnone text value (Environment.text?_eq_some_iff.mp htext))
  alone := by
    intro environment other hsame
    rw [hsetting, hsetting, Environment.text?, Environment.text?, hsame]

/-- A setting that is parsed from the trimmed text of its variable follows from it. -/
theorem follows_parseOr {α : Type} {name : String} {Spells : String → α → Prop}
    {default : α} {read : String → Option α}
    (hread : ∀ text value, read text = some value ↔ Spells text value) :
    Follows (fun environment => environment.parseOr name read default) name Spells default := by
  apply follows_of_read (fun _ => rfl)
  intro text value
  rw [hread, Text.holds_iff]

/-- A level of which the name is taken from a variable, or from a built-in level, follows from the
variable. -/
theorem follows_textOr {name : String} {default : Level} (hdefault : default ∈ Level.builtins) :
    Follows (fun environment =>
      (Level.ofName? (environment.textOr name default.name)).getD default) name
      Level.SpelledBy default := by
  have hname : Level.ofName? default.name = some default := by
    revert default
    decide
  have hread (text : String) (value : Level) :
      Level.ofName? text = some value ↔ Text.Holds Level.SpelledBy text value := by
    rw [Level.ofName?_eq_some_iff, Text.holds_iff]
  refine follows_of_read (fun environment => ?_) hread
  rw [Environment.textOr]
  cases environment.text? name with
  | none => rw [Option.getD_none, hname]; rfl
  | some text => rfl

/-- How the settings follow from the environment. -/
structure FollowsVariables : Prop where
  /-- The size of the channel is a number of 64 bits. -/
  buffer : Follows (fun environment => (ofEnvironment environment).buffer)
    "LOG_EVENT_CHANNEL_BUFFER" Text.SpellsWord default.buffer
  /-- The size of a batch is a number of 64 bits. -/
  batchSize : Follows (fun environment => (ofEnvironment environment).batchSize)
    "LOG_EVENT_BATCH_SIZE" Text.SpellsWord default.batchSize
  /-- The longest wait of a batch is a number of 64 bits. -/
  flushMillis : Follows (fun environment => (ofEnvironment environment).flushMillis)
    "LOG_EVENT_FLUSH_MS" Text.SpellsWord default.flushMillis
  /-- Whether events are shown is a truth value. -/
  stdout : Follows (fun environment => (ofEnvironment environment).stdout)
    "LOG_EVENT_STDOUT" Text.SpellsTruth default.stdout
  /-- The least severe level is a built-in one. -/
  maxLevel : Follows (fun environment => (ofEnvironment environment).maxLevel)
    "LOG_EVENT_MAX_LEVEL" Level.SpelledBy default.maxLevel

/-- In every environment, each setting follows from its own variable. -/
theorem followsVariables : FollowsVariables where
  buffer := follows_parseOr fun _ _ => Text.unsigned?_eq_some_iff
  batchSize := follows_parseOr fun _ _ => Text.unsigned?_eq_some_iff
  flushMillis := follows_parseOr fun _ _ => Text.unsigned?_eq_some_iff
  stdout := follows_parseOr fun _ _ => Text.truth?_eq_some_iff
  maxLevel := follows_textOr (by decide)

/-- Numbers on both sides of the bound, bytes that are no text, a truth value in the wrong case, and
a level between wide blanks. -/
example :
    let config := ofEnvironment ⟨.ofList
      [("LOG_EVENT_CHANNEL_BUFFER", "18446744073709551616".toUTF8),
        ("LOG_EVENT_BATCH_SIZE", "+18446744073709551615".toUTF8),
        ("LOG_EVENT_FLUSH_MS", ⟨#[0x37, 0xff]⟩), ("LOG_EVENT_STDOUT", "FALSE".toUTF8),
        ("LOG_EVENT_MAX_LEVEL", "\u3000wArN\n".toUTF8)]⟩
    (config.buffer, config.batchSize, config.flushMillis, config.stdout, config.maxLevel) =
      (1024, 18446744073709551615, 1000, true, Level.warn) := by
  decide +kernel

end Config

end EventSnapshot
