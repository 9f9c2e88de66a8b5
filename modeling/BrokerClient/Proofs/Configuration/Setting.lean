import BrokerClient.Configuration.Source
import BrokerClient.Proofs.Record.Acceptance
import Mathlib.Data.Fintype.Basic

/-!
# Settings and fields

A configuration has seven fields. Each of them is read from its own setting, and has its default
without one, so a configuration is loaded exactly if every setting can be read. Arguments that are
named like fields, in whatever case, say nothing about how settings are read.
-/
namespace BrokerClient.Configuration

open Record Verdict

/-- The variable for a setting of that name, spelled in capitals. -/
def capitalVariable (name : String) : String := Text.uppercase (variableStart ++ name)

/-- A field of a configuration. -/
inductive Field where
  | server
  | username
  | password
  | clientId
  | timeout
  | proxy
  | verifySsl
  deriving DecidableEq, Repr

namespace Field

/-- The fields in order. -/
def all : List Field := [server, username, password, clientId, timeout, proxy, verifySsl]

def name : Field → String
  | server => "server"
  | username => "username"
  | password => "password"
  | clientId => "client_id"
  | timeout => "timeout"
  | proxy => "proxy"
  | verifySsl => "verify_ssl"

/-- What a configuration can hold in a field. -/
abbrev Held : Field → Type
  | server => String
  | username => Option String
  | password => Option String
  | clientId => String
  | timeout => Float
  | proxy => Option String
  | verifySsl => Bool

/-- What a configuration holds in a field. -/
def held (c : Configuration) : (field : Field) → field.Held
  | server => c.server
  | username => c.username
  | password => c.password
  | clientId => c.clientId
  | timeout => c.timeout
  | proxy => c.proxy
  | verifySsl => c.verifySsl

/-- How the setting of a field is read. -/
def read : (field : Field) → Value → Verdict field.Held
  | server => string
  | username => nullable string
  | password => nullable string
  | clientId => string
  | timeout => number
  | proxy => nullable string
  | verifySsl => truth

/-- A value can be the setting of a field. -/
def Valid (field : Field) (v : Value) : Prop := ∃ a, field.read v = accepted a

instance (field : Field) (v : Value) : Decidable (field.Valid v) :=
  match h : field.read v with
  | accepted a => .isTrue ⟨a, h⟩
  | rejected _ | aborted _ => .isFalse (by simp [Valid, h])

/-- A configuration holds in a field what the setting says, or the default without a setting. -/
def Gives (field : Field) (c : Configuration) : Option Value → Prop
  | some v => field.read v = accepted (field.held c)
  | none => field.held c = field.held default

theorem mem_all (field : Field) : field ∈ all := by
  cases field <;> decide

instance : Fintype Field := ⟨⟨all, by decide⟩, mem_all⟩

theorem mem_fieldNames {name : String} :
    name ∈ fieldNames ↔ ∃ field : Field, field.name = name := by
  have hall : fieldNames = all.map Field.name := rfl
  simp only [hall, List.mem_map, mem_all, true_and]

theorem name_mem (field : Field) : field.name ∈ fieldNames :=
  mem_fieldNames.mpr ⟨field, rfl⟩

@[simp] theorem lowercase_name (field : Field) : Text.lowercase field.name = field.name := by
  cases field <;> decide +kernel

/-- Ignoring case, the capitals spell the variable for the field. -/
theorem lowercase_capitalVariable (field : Field) :
    Text.lowercase (capitalVariable field.name) =
      Text.lowercase (variableStart ++ field.name) := by
  cases field <;> decide +kernel

/-- Values for all fields make a configuration. -/
theorem exists_held (values : (field : Field) → field.Held) :
    ∃ c : Configuration, ∀ field : Field, field.held c = values field :=
  ⟨⟨values .server, values .username, values .password, values .clientId, values .timeout,
    values .proxy, values .verifySsl⟩, fun field => by cases field <;> rfl⟩

/-- Settings that can be read, for some of the fields, make a configuration. -/
theorem exists_gives {setting : Field → Option Value}
    (h : ∀ (field : Field) (v : Value), setting field = some v → field.Valid v) :
    ∃ c : Configuration, ∀ field : Field, field.Gives c (setting field) := by
  have hvalue (field : Field) : ∃ a : field.Held,
      ∀ c : Configuration, field.held c = a → field.Gives c (setting field) := by
    cases hs : setting field with
    | none => exact ⟨field.held default, fun c hc => hc⟩
    | some v =>
      obtain ⟨a, ha⟩ := h field v hs
      exact ⟨a, fun c hc => ha.trans (congrArg accepted hc.symm)⟩
  choose values hvalues using hvalue
  obtain ⟨c, hc⟩ := exists_held values
  exact ⟨c, fun field => hvalues field c (hc field)⟩

/-- What a field holds is determined by its setting. -/
theorem Gives.held_eq {field : Field} {c c' : Configuration} {setting : Option Value}
    (h : field.Gives c setting) (h' : field.Gives c' setting) : field.held c = field.held c' := by
  cases setting with
  | none => exact h.trans h'.symm
  | some v => exact accepted.inj (h.symm.trans h')

theorem gives_find? {field : Field} {c : Configuration} {fields : Mapping Value} :
    field.Gives c (fields.find? field.name) ↔
      defaulted field.name (field.held default) field.read fields = accepted (field.held c) := by
  rw [defaulted_eq_accepted]
  cases fields.find? field.name <;> simp [Gives]

end Field

theorem decode_eq_accepted {fields : Mapping Value} {c : Configuration} :
    decode fields = accepted c ↔ ∀ field : Field, field.Gives c (fields.find? field.name) := by
  simp only [Field.gives_find?]
  constructor
  · intro h field
    simp only [decode, seq_eq_accepted, map_eq_accepted] at h
    obtain ⟨_, _, ⟨_, _, ⟨_, _, ⟨_, _, ⟨_, _, ⟨_, _, ⟨_, h₁, rfl⟩, h₂, rfl⟩, h₃, rfl⟩, h₄, rfl⟩, h₅,
      rfl⟩, h₆, rfl⟩, h₇, rfl⟩ := h
    cases field <;> assumption
  · intro h
    simp only [decode, seq_eq_accepted, map_eq_accepted]
    exact ⟨_, _, ⟨_, _, ⟨_, _, ⟨_, _, ⟨_, _, ⟨_, _, ⟨_, h .server, rfl⟩, h .username, rfl⟩,
      h .password, rfl⟩, h .clientId, rfl⟩, h .timeout, rfl⟩, h .proxy, rfl⟩, h .verifySsl, rfl⟩

end BrokerClient.Configuration
