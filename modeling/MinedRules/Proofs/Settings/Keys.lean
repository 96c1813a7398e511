import MinedRules.Settings.Basic

/-!
# Where settings come from

Every setting has a section of a document, a key in this section or a place if the section is an
array, and a default (`Settings.IsGivenBy`).

* `Settings.ofToml?_eq_some_iff` : the settings of a table are those that it gives.
* `Settings.ofText_eq_ok_iff` : the settings of a text are given by its table, and no symbol is empty.
* `Settings.ofText_eq_malformed_iff`, `Settings.ofText_eq_emptySymbol_iff` : why a text has none.
-/

namespace MinedRules

namespace Toml

variable {key : Text} {es : Entries}

/-- The first entry with the key has the item. -/
def IsEntry (key : Text) (es : Entries) (item : Item) : Prop :=
  ∃ before after, es = before ++ (key, item) :: after ∧ ∀ e ∈ before, e.1 ≠ key

theorem find?_eq_some_iff {item : Item} : find? key es = some item ↔ IsEntry key es item := by
  constructor
  · intro h
    induction es with
    | nil => simp [find?] at h
    | cons e es ih =>
      obtain ⟨k, i⟩ := e
      rw [find?] at h
      split at h
      · next hk =>
        obtain rfl := Option.some.inj h
        exact ⟨[], es, by rw [hk, List.nil_append], by simp⟩
      · next hk =>
        obtain ⟨before, after, rfl, hbefore⟩ := ih h
        exact ⟨(k, i) :: before, after, rfl, List.forall_mem_cons.2 ⟨hk, hbefore⟩⟩
  · rintro ⟨before, after, rfl, hbefore⟩
    induction before with
    | nil => rw [List.nil_append, find?, if_pos rfl]
    | cons e before ih =>
      obtain ⟨hk, hbefore⟩ := List.forall_mem_cons.1 hbefore
      rw [List.cons_append, find?, if_neg hk, ih hbefore]

theorem find?_eq_none_iff : find? key es = none ↔ ∀ e ∈ es, e.1 ≠ key := by
  induction es with
  | nil => simp [find?]
  | cons e es ih =>
    obtain ⟨k, i⟩ := e
    rw [find?, List.forall_mem_cons]
    by_cases hk : k = key
    · simp [hk]
    · simp [hk, ih]

end Toml

namespace Settings

open Toml (IsEntry)

variable {es : Toml.Entries} {name key t : Text} {place : Nat} {s : Settings}

/-! ### Keys -/

/-- What stands for a key of a section: the item of the key or, if the section is an array, the item
in the place of the key. -/
inductive Finds (es : Toml.Entries) (name : Text) (place : Nat) (key : Text) :
    Option Toml.Item → Prop
  | noSection : (∀ e ∈ es, e.1 ≠ name) → Finds es name place key none
  | date : IsEntry name es .datetime → Finds es name place key none
  | noKey {origin : Toml.Origin} {entries : Toml.Entries} :
      IsEntry name es (.table origin entries) → (∀ e ∈ entries, e.1 ≠ key) →
      Finds es name place key none
  | key {origin : Toml.Origin} {entries : Toml.Entries} {item : Toml.Item} :
      IsEntry name es (.table origin entries) → IsEntry key entries item →
      Finds es name place key (some item)
  | array {items : List Toml.Item} : IsEntry name es (.array items) →
      Finds es name place key items[place]?
  | tables {elements : List Toml.Entries} : IsEntry name es (.tables elements) →
      Finds es name place key (elements[place]?.map (.table .header))

/-- The value of the item for a setting, or the default if there is none. -/
inductive Holds {α : Type} (wrap : α → Toml.Item) (default_ : α) : Option Toml.Item → α → Prop
  | absent : Holds wrap default_ none default_
  | given (x : α) : Holds wrap default_ (some (wrap x)) x

/-- The table gives the setting the value `x`. -/
def Sets {α : Type} (wrap : α → Toml.Item) (es : Toml.Entries) (name : Text) (place : Nat)
    (key : Text) (default_ x : α) : Prop :=
  ∃ item?, Finds es name place key item? ∧ Holds wrap default_ item? x

/-- The table gives the settings: each has a section, a place, a key and a default. -/
structure IsGivenBy (es : Toml.Entries) (s : Settings) : Prop where
  implication : Sets .string es "connectives".toList 0 "implication".toList ['<', '-']
    s.connectives.implication
  conjunction : Sets .string es "connectives".toList 1 "conjunction".toList ['∧']
    s.connectives.conjunction
  disjunction : Sets .string es "connectives".toList 2 "disjunction".toList ['∨']
    s.connectives.disjunction
  marker : Sets .string es "inverse".toList 0 "marker".toList "INV".toList s.marker
  suffix : Sets .string es "input".toList 0 "suffix".toList "ori.txt".toList s.suffix
  stripsTypes : Sets .bool es "output".toList 0 "strip_types".toList false s.stripsTypes

theorem finds_iff {item? : Option Toml.Item} :
    Finds es name place key item? ↔ ∃ c, section? name es = some c ∧ c.item? place key = item? := by
  constructor
  · intro h
    cases h with
    | noSection h => exact ⟨.keyed [], by rw [section?, Toml.find?_eq_none_iff.2 h], rfl⟩
    | date h => exact ⟨.keyed [], by rw [section?, Toml.find?_eq_some_iff.2 h], rfl⟩
    | noKey h hkey =>
      exact ⟨.keyed _, by rw [section?, Toml.find?_eq_some_iff.2 h], Toml.find?_eq_none_iff.2 hkey⟩
    | key h hkey =>
      exact ⟨.keyed _, by rw [section?, Toml.find?_eq_some_iff.2 h], Toml.find?_eq_some_iff.2 hkey⟩
    | array h => exact ⟨.positional _, by rw [section?, Toml.find?_eq_some_iff.2 h], rfl⟩
    | tables h =>
      exact ⟨.positional _, by rw [section?, Toml.find?_eq_some_iff.2 h], List.getElem?_map⟩
  · rintro ⟨c, hsection, rfl⟩
    rw [section?.eq_def] at hsection
    split at hsection
    · next hnone =>
      obtain rfl := Option.some.inj hsection
      exact .noSection (Toml.find?_eq_none_iff.1 hnone)
    · next origin entries htable =>
      obtain rfl := Option.some.inj hsection
      have h := Toml.find?_eq_some_iff.1 htable
      rw [Section.item?]
      cases hkey : Toml.find? key entries with
      | none => exact .noKey h (Toml.find?_eq_none_iff.1 hkey)
      | some item => exact .key h (Toml.find?_eq_some_iff.1 hkey)
    · next items harray =>
      obtain rfl := Option.some.inj hsection
      exact .array (Toml.find?_eq_some_iff.1 harray)
    · next elements htables =>
      obtain rfl := Option.some.inj hsection
      rw [Section.item?, List.getElem?_map]
      exact .tables (Toml.find?_eq_some_iff.1 htables)
    · next hdate =>
      obtain rfl := Option.some.inj hsection
      exact .date (Toml.find?_eq_some_iff.1 hdate)
    · simp at hsection

theorem holds_iff {α : Type} {wrap : α → Toml.Item} {d x : α} {item? : Option Toml.Item} :
    Holds wrap d item? x ↔ item? = none ∧ d = x ∨ item? = some (wrap x) := by
  constructor
  · rintro (_ | _)
    · exact .inl ⟨rfl, rfl⟩
    · exact .inr rfl
  · rintro (⟨rfl, rfl⟩ | rfl)
    · exact .absent
    · exact .given x

theorem text?_eq_some_iff {c : Section} {d x : Text} :
    c.text? place key d = some x ↔ Holds .string d (c.item? place key) x := by
  rw [Section.text?, holds_iff]
  cases c.item? place key with
  | none => simp
  | some item => cases item <;> simp

theorem bool?_eq_some_iff {c : Section} {d x : Bool} :
    c.bool? place key d = some x ↔ Holds .bool d (c.item? place key) x := by
  rw [Section.bool?, holds_iff]
  cases c.item? place key with
  | none => simp
  | some item => cases item <;> simp

theorem sets_iff {α : Type} {wrap : α → Toml.Item} {d x : α} :
    Sets wrap es name place key d x ↔
      ∃ c, section? name es = some c ∧ Holds wrap d (c.item? place key) x := by
  constructor
  · rintro ⟨_, hfinds, hx⟩
    obtain ⟨c, hsection, rfl⟩ := finds_iff.1 hfinds
    exact ⟨c, hsection, hx⟩
  · rintro ⟨c, hsection, hx⟩
    exact ⟨_, finds_iff.2 ⟨c, hsection, rfl⟩, hx⟩

/-- **The settings of a table are those that it gives.** -/
theorem ofToml?_eq_some_iff : ofToml? es = some s ↔ IsGivenBy es s := by
  constructor
  · intro h
    simp only [ofToml?, Option.bind_eq_bind, Option.bind_eq_some_iff, Option.pure_def,
      Option.some.injEq] at h
    obtain ⟨symbols, hsymbols, inverse, hinverse, input, hinput, output, houtput, i, hi, c, hc, d, hd,
      m, hm, u, hu, b, hb, rfl⟩ := h
    exact ⟨sets_iff.2 ⟨_, hsymbols, text?_eq_some_iff.1 hi⟩,
      sets_iff.2 ⟨_, hsymbols, text?_eq_some_iff.1 hc⟩,
      sets_iff.2 ⟨_, hsymbols, text?_eq_some_iff.1 hd⟩,
      sets_iff.2 ⟨_, hinverse, text?_eq_some_iff.1 hm⟩,
      sets_iff.2 ⟨_, hinput, text?_eq_some_iff.1 hu⟩,
      sets_iff.2 ⟨_, houtput, bool?_eq_some_iff.1 hb⟩⟩
  · rintro ⟨hi, hc, hd, hm, hu, hb⟩
    obtain ⟨symbols, hsymbols, hi⟩ := sets_iff.1 hi
    obtain ⟨_, hsymbols₁, hc⟩ := sets_iff.1 hc
    obtain ⟨_, hsymbols₂, hd⟩ := sets_iff.1 hd
    obtain rfl := Option.some.inj (hsymbols.symm.trans hsymbols₁)
    obtain rfl := Option.some.inj (hsymbols.symm.trans hsymbols₂)
    obtain ⟨inverse, hinverse, hm⟩ := sets_iff.1 hm
    obtain ⟨input, hinput, hu⟩ := sets_iff.1 hu
    obtain ⟨output, houtput, hb⟩ := sets_iff.1 hb
    rw [← text?_eq_some_iff] at hi hc hd hm hu
    rw [← bool?_eq_some_iff] at hb
    simp only [ofToml?, Option.bind_eq_bind, Option.bind_eq_some_iff, Option.pure_def]
    exact ⟨symbols, hsymbols, inverse, hinverse, input, hinput, output, houtput, _, hi, _, hc, _, hd,
      _, hm, _, hu, _, hb, rfl⟩

theorem isGivenBy_nil_iff : IsGivenBy [] s ↔ s = {} := by
  have hnil : ofToml? [] = some {} := rfl
  rw [← ofToml?_eq_some_iff, hnil, Option.some.injEq, eq_comm]

/-! ### Symbols -/

/-- The text of the symbol in the settings. -/
def Symbol.text (s : Settings) : Symbol → Text
  | implication => s.connectives.implication
  | conjunction => s.connectives.conjunction
  | disjunction => s.connectives.disjunction
  | marker => s.marker

/-- The symbols in the order in which they are checked. -/
def Symbol.all : List Symbol := [implication, conjunction, disjunction, marker]

/-- The symbol is empty and none before it is. -/
structure IsFirstEmpty (s : Settings) (y : Symbol) : Prop where
  empty : y.text s = []
  before : ∃ earlier later, Symbol.all = earlier ++ y :: later ∧ ∀ z ∈ earlier, z.text s ≠ []

theorem emptySymbol?_eq_find? (s : Settings) :
    s.emptySymbol? = Symbol.all.find? fun y => (y.text s).isEmpty := by
  have hcons : ∀ (y : Symbol) (ys : List Symbol), (y :: ys).find? (fun y => (y.text s).isEmpty) =
      if (y.text s).isEmpty then some y else ys.find? fun y => (y.text s).isEmpty := by
    intro y ys
    rw [List.find?_cons]
    cases (y.text s).isEmpty <;> rfl
  rw [Symbol.all, hcons, hcons, hcons, hcons]
  rfl

theorem emptySymbol?_eq_none_iff : s.emptySymbol? = none ↔ ∀ y : Symbol, y.text s ≠ [] := by
  rw [emptySymbol?_eq_find?, List.find?_eq_none]
  constructor
  · intro h y
    have hy : y ∈ Symbol.all := by cases y <;> decide
    simpa using h y hy
  · intro h y _
    simpa using h y

theorem emptySymbol?_eq_some_iff {y : Symbol} : s.emptySymbol? = some y ↔ IsFirstEmpty s y := by
  rw [emptySymbol?_eq_find?, List.find?_eq_some_iff_append]
  constructor
  · rintro ⟨hempty, earlier, later, hall, hbefore⟩
    exact ⟨by simpa using hempty, earlier, later, hall, by simpa using hbefore⟩
  · rintro ⟨hempty, earlier, later, hall, hbefore⟩
    exact ⟨by simpa using hempty, earlier, later, hall, by simpa using hbefore⟩

/-! ### Texts -/

/-- The text is a document whose table gives the settings. -/
def IsDocumentOf (t : Text) (s : Settings) : Prop :=
  ∃ es, Toml.read? t = some es ∧ IsGivenBy es s

theorem isDocumentOf_iff : IsDocumentOf t s ↔ (Toml.read? t).bind ofToml? = some s := by
  simp only [IsDocumentOf, Option.bind_eq_some_iff, ofToml?_eq_some_iff]

/-- **The settings of a text are given by its table, and no symbol is empty.** -/
theorem ofText_eq_ok_iff : ofText t = .ok s ↔ IsDocumentOf t s ∧ ∀ y : Symbol, y.text s ≠ [] := by
  rw [isDocumentOf_iff, ← emptySymbol?_eq_none_iff, ofText]
  cases (Toml.read? t).bind ofToml? with
  | none => simp
  | some s' =>
    simp only [Option.some.injEq]
    cases hempty : s'.emptySymbol? with
    | none =>
      rw [Except.ok.injEq]
      exact ⟨fun h => ⟨h, h ▸ hempty⟩, And.left⟩
    | some y =>
      refine iff_of_false (by simp) ?_
      rintro ⟨rfl, hnone⟩
      rw [hempty] at hnone
      simp at hnone

/-- A text without settings is malformed. -/
theorem ofText_eq_malformed_iff : ofText t = .error .malformed ↔ ∀ s, ¬ IsDocumentOf t s := by
  simp only [isDocumentOf_iff, ofText]
  cases (Toml.read? t).bind ofToml? with
  | none => simp
  | some s =>
    refine iff_of_false ?_ fun h => h s rfl
    cases hempty : s.emptySymbol? <;> simp [hempty]

/-- Settings with an empty symbol are refused for the first one. -/
theorem ofText_eq_emptySymbol_iff {y : Symbol} :
    ofText t = .error (.emptySymbol y) ↔ ∃ s, IsDocumentOf t s ∧ IsFirstEmpty s y := by
  simp only [isDocumentOf_iff, ← emptySymbol?_eq_some_iff, ofText]
  cases (Toml.read? t).bind ofToml? with
  | none => simp
  | some s =>
    simp only [Option.some.injEq, exists_eq_left']
    cases s.emptySymbol? <;> simp

end Settings

end MinedRules
