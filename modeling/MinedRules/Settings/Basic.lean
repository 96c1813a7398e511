import MinedRules.Rule.Canonical
import MinedRules.Toml.Reader

/-!
# Settings

A settings file is a TOML document with the sections `connectives`, `inverse`, `input` and
`output`.  Everything in it is optional and unknown keys do not count.  A section may also be an
array, which gives the values of its keys in order.

The four symbols must not be empty, because an empty symbol would be found between all characters.
-/

namespace MinedRules

/-- What can be set for a conversion. -/
structure Settings where
  connectives : Connectives := {}
  marker : Text := ['I', 'N', 'V']
  /-- The end of the names of record files. -/
  suffix : Text := ['o', 'r', 'i', '.', 't', 'x', 't']
  stripsTypes : Bool := false
  deriving DecidableEq, Repr

namespace Settings

/-- The settings that must not be empty. -/
inductive Symbol
  | implication
  | conjunction
  | disjunction
  | marker
  deriving DecidableEq, Repr

/-- The section and the key of a symbol. -/
def Symbol.name : Symbol → String
  | implication => "connectives.implication"
  | conjunction => "connectives.conjunction"
  | disjunction => "connectives.disjunction"
  | marker => "inverse.marker"

/-- Why a text is no settings file. -/
inductive Error
  /-- Not a TOML document, or a value of the wrong type. -/
  | malformed
  /-- An empty symbol. -/
  | emptySymbol (symbol : Symbol)
  deriving DecidableEq, Repr

/-- The wording of a settings error. -/
def Error.message : Error → String
  | malformed => "Failed to parse config TOML"
  | emptySymbol symbol => s!"Config value {symbol.name} must not be empty"

/-! ### Sections -/

/-- The values that a section gives to its keys. -/
inductive Section
  | keyed (entries : Toml.Entries)
  | positional (items : List Toml.Item)

/-- The section with the given name.  A missing section, and a date, give no values. -/
def section? (name : Text) (es : Toml.Entries) : Option Section :=
  match Toml.find? name es with
  | none => some (.keyed [])
  | some (.table _ entries) => some (.keyed entries)
  | some (.array items) => some (.positional items)
  | some (.tables elements) => some (.positional (elements.map (.table .header)))
  | some .datetime => some (.keyed [])
  | some _ => none

/-- The item of a key, which is the one at `place` in an array. -/
def Section.item? (s : Section) (place : Nat) (key : Text) : Option Toml.Item :=
  match s with
  | keyed entries => Toml.find? key entries
  | positional items => items[place]?

/-- The text of a key, or a default. -/
def Section.text? (s : Section) (place : Nat) (key default_ : Text) : Option Text :=
  match s.item? place key with
  | none => some default_
  | some (.string t) => some t
  | some _ => none

/-- The truth value of a key, or a default. -/
def Section.bool? (s : Section) (place : Nat) (key : Text) (default_ : Bool) : Option Bool :=
  match s.item? place key with
  | none => some default_
  | some (.bool b) => some b
  | some _ => none

/-- The settings of a TOML table, if all values have the right type. -/
def ofToml? (es : Toml.Entries) : Option Settings := do
  let base : Settings := {}
  let symbols ← section? "connectives".toList es
  let inverse ← section? "inverse".toList es
  let input ← section? "input".toList es
  let output ← section? "output".toList es
  return {
    connectives := {
      implication := ← symbols.text? 0 "implication".toList base.connectives.implication
      conjunction := ← symbols.text? 1 "conjunction".toList base.connectives.conjunction
      disjunction := ← symbols.text? 2 "disjunction".toList base.connectives.disjunction }
    marker := ← inverse.text? 0 "marker".toList base.marker
    suffix := ← input.text? 0 "suffix".toList base.suffix
    stripsTypes := ← output.bool? 0 "strip_types".toList base.stripsTypes }

/-- The first symbol that is empty. -/
def emptySymbol? (s : Settings) : Option Symbol :=
  if s.connectives.implication.isEmpty then some .implication
  else if s.connectives.conjunction.isEmpty then some .conjunction
  else if s.connectives.disjunction.isEmpty then some .disjunction
  else if s.marker.isEmpty then some .marker
  else none

/-- The settings of a file with the given text. -/
def ofText (t : Text) : Except Error Settings :=
  match (Toml.read? t).bind ofToml? with
  | none => .error .malformed
  | some s =>
    match s.emptySymbol? with
    | some symbol => .error (.emptySymbol symbol)
    | none => .ok s

/-- How rules are read under the settings. -/
def canonicalizer (s : Settings) : Canonicalizer := ⟨s.connectives, s.marker, s.stripsTypes⟩

end Settings

end MinedRules
