import MinedRules.Proofs.Attempt.Agreement
import MinedRules.Proofs.Literal.Decoding

/-!
# Records that are JSON and literals

A record line is tried as JSON first.  If it is also a literal, that changes nothing
(`decode_of_read`): the line is decoded to what its value as a literal lists (`Lists`), and if that
lists no rules, to the reason (`ofValue`).
-/

namespace MinedRules

namespace Attempt

/-! ### The rules that a value lists -/

/-- The value is a record of the rules: an object with the entry `rules` or an array with one element,
and the entry or element is a list of strings, the rules. -/
inductive Lists : Value → List Text → Prop
  | object {fields : List (Text × Value)} {rules : List Text} :
      Value.field? rulesKey fields = some (.array (rules.map .string)) → Lists (.object fields) rules
  | array {rules : List Text} : Lists (.array [.array (rules.map .string)]) rules

theorem texts_map (rules : List Text) : texts (rules.map .string) = .ok rules := by
  induction rules with
  | nil => rfl
  | cons r rules ih =>
    rw [List.map_cons, texts, ih]

theorem eq_of_texts {vs : List Value} {rules : List Text} (h : texts vs = .ok rules) :
    vs = rules.map .string := by
  induction vs generalizing rules with
  | nil =>
    obtain rfl := Except.ok.inj h
    rfl
  | cons v vs ih =>
    unfold texts at h
    split at h
    · simp at *
    · next t values heq =>
      obtain ⟨rfl, rfl⟩ := List.cons.inj heq
      split at h
      · next ts hts =>
        obtain rfl := Except.ok.inj h
        rw [List.map_cons, ih hts]
      · simp at h
    · simp at h

theorem rulesOf_eq_ok_iff {v : Value} {rules : List Text} :
    rulesOf v = .ok rules ↔ v = .array (rules.map .string) := by
  constructor
  · intro h
    unfold rulesOf at h
    split at h
    · rw [eq_of_texts h]
    · simp at h
  · rintro rfl
    exact texts_map rules

/-- **The attempt that a value is has the rules that it lists.** -/
theorem ofValue_eq_ok_iff {v : Value} {rules : List Text} :
    ofValue v = .ok ⟨rules⟩ ↔ Lists v rules := by
  constructor
  · intro h
    unfold ofValue at h
    split at h
    · next fields =>
      split at h
      · simp at h
      · next w hw =>
        cases hrules : rulesOf w with
        | error e => simp [hrules, Except.map] at h
        | ok ts =>
          rw [hrules] at h
          obtain rfl := (Attempt.mk.inj (Except.ok.inj h))
          exact .object (hw.trans (congrArg some (rulesOf_eq_ok_iff.1 hrules)))
    · simp at h
    · next w more =>
      split at h
      · simp at h
      · next ts hts =>
        split at h
        · next hmore =>
          obtain rfl := (Attempt.mk.inj (Except.ok.inj h))
          rw [List.isEmpty_iff.1 hmore, rulesOf_eq_ok_iff.1 hts]
          exact .array
        · simp at h
    · simp at h
  · intro h
    cases h with
    | object hfield =>
      simp only [ofValue, hfield, rulesOf_eq_ok_iff.2 rfl]
      rfl
    | array =>
      simp only [ofValue, rulesOf_eq_ok_iff.2 rfl]
      rfl

/-! ### The rules of a tree -/

theorem eq_of_ruleOfTree? {tree : Json.Tree} {v : Value} {rule : Text} (h : Describes tree v)
    (hrule : ruleOfTree? tree = some rule) : v = .string rule := by
  cases h with
  | string hmakes => rw [Option.some.inj (hmakes.symm.trans hrule)]
  | _ => simp [ruleOfTree?] at hrule

theorem eq_of_mapM_ruleOfTree? {trees : List Json.Tree} {vs : List Value} {rules : List Text}
    (h : List.Forall₂ Describes trees vs) (hrules : trees.mapM ruleOfTree? = some rules) :
    vs = rules.map .string := by
  induction h generalizing rules with
  | nil =>
    obtain rfl := Option.some.inj hrules
    rfl
  | cons htree _ ih =>
    rw [List.mapM_cons] at hrules
    obtain ⟨rule, hrule, hrest⟩ := Option.bind_eq_some_iff.1 hrules
    obtain ⟨more, hmore, heq⟩ := Option.bind_eq_some_iff.1 hrest
    obtain rfl := Option.some.inj heq
    rw [List.map_cons, eq_of_ruleOfTree? htree hrule, ih hmore]

theorem eq_of_rulesOfTree? {tree : Json.Tree} {v : Value} {rules : List Text}
    (h : Describes tree v) (hrules : rulesOfTree? tree = some rules) :
    v = .array (rules.map .string) := by
  cases h with
  | array hall => rw [eq_of_mapM_ruleOfTree? hall hrules]
  | _ => simp [rulesOfTree?] at hrules

/-- An entry of JSON with its key as a text, and the entry of a literal that it describes. -/
def Keyed (a : Text × Json.Tree) (b : Value × Value) : Prop :=
  a.1 = Literal.keyText b.1 ∧ Describes a.2 b.2

theorem forall₂_keyed {entries : List (List Json.Piece × Json.Tree)} {es : List (Value × Value)}
    {keyed : List (Text × Json.Tree)} (h : List.Forall₂ (SameEntry Describes) entries es)
    (hkeyed : keyed? entries = some keyed) : List.Forall₂ Keyed keyed es := by
  rw [keyed?] at hkeyed
  induction h generalizing keyed with
  | nil =>
    obtain rfl := Option.some.inj hkeyed
    exact .nil
  | cons hentry _ ih =>
    obtain ⟨hmakes, hdescribes⟩ := hentry
    rw [List.mapM_cons] at hkeyed
    obtain ⟨e, he, hrest⟩ := Option.bind_eq_some_iff.1 hkeyed
    obtain ⟨more, hmore, heq⟩ := Option.bind_eq_some_iff.1 hrest
    obtain rfl := Option.some.inj heq
    obtain ⟨key, hkey, rfl⟩ := Option.map_eq_some_iff.1 he
    exact .cons ⟨Option.some.inj (hkey.symm.trans hmakes), hdescribes⟩ (ih hmore)

/-- A key that JSON has once is the last one of its text. -/
theorem lastValue?_of_filter {keyed : List (Text × Json.Tree)} {es : List (Value × Value)}
    {key : Text} (h : List.Forall₂ Keyed keyed es) :
    (keyed.filter (fun e => e.1 == key) = [] → Literal.lastValue? key es = none) ∧
      ∀ e, keyed.filter (fun e => e.1 == key) = [e] →
        ∃ v, Literal.lastValue? key es = some v ∧ Describes e.2 v := by
  induction h with
  | nil => exact ⟨fun _ => rfl, fun e he => absurd he (by simp)⟩
  | @cons a b keyed es hab _ ih =>
    obtain ⟨hkey, hdescribes⟩ := hab
    rw [Literal.lastValue?_cons, ← hkey]
    by_cases ha : a.1 = key
    · rw [List.filter_cons_of_pos (by simpa using ha), if_pos ha]
      refine ⟨fun hnil => absurd hnil (by simp), fun e he => ?_⟩
      obtain ⟨rfl, hnil⟩ := List.cons.inj he
      exact ⟨b.2, by rw [ih.1 hnil, Option.none_or], hdescribes⟩
    · rw [List.filter_cons_of_neg (by simpa using ha), if_neg ha, Option.or_none]
      exact ih

theorem lists_of_array {trees : List Json.Tree} {vs : List Value} {attempt : Attempt}
    (h : List.Forall₂ Describes trees vs) (hattempt : ofTree? (.array trees) = some attempt) :
    Lists (.array vs) attempt.rules := by
  unfold ofTree? at hattempt
  split at hattempt
  · simp at *
  · next tree heq =>
    obtain rfl := Json.Tree.array.inj heq
    obtain ⟨rules, hrules, rfl⟩ := Option.map_eq_some_iff.1 hattempt
    cases h with
    | cons hdescribes hnil =>
      cases hnil
      rw [eq_of_rulesOfTree? hdescribes hrules]
      exact .array
  · simp at hattempt

theorem lists_of_object {entries : List (List Json.Piece × Json.Tree)} {es : List (Value × Value)}
    {attempt : Attempt} (h : List.Forall₂ (SameEntry Describes) entries es)
    (hattempt : ofTree? (.object entries) = some attempt) :
    Lists (Literal.object es) attempt.rules := by
  rw [ofTree?] at hattempt
  cases hkeyed : keyed? entries with
  | none => simp [hkeyed] at hattempt
  | some keyed =>
    simp only [hkeyed] at hattempt
    split at hattempt
    · next key tree hfilter =>
      obtain ⟨rules, hrules, rfl⟩ := Option.map_eq_some_iff.1 hattempt
      obtain ⟨w, hw, hdescribes⟩ := (lastValue?_of_filter (forall₂_keyed h hkeyed)).2 _ hfilter
      have hvalues := Literal.field?_insertAll_nil rulesKey es
      rw [hw, eq_of_rulesOfTree? hdescribes hrules] at hvalues
      exact .object hvalues
    · simp at hattempt

/-- **The rules that a tree lists are listed by the value that it describes.** -/
theorem lists_of_ofTree? {tree : Json.Tree} {v : Value} {attempt : Attempt}
    (h : Describes tree v) (hattempt : ofTree? tree = some attempt) : Lists v attempt.rules := by
  cases h with
  | atom => simp [ofTree?] at hattempt
  | string => simp [ofTree?] at hattempt
  | array hall => exact lists_of_array hall hattempt
  | object hall => exact lists_of_object hall hattempt

/-! ### Whole lines -/

theorem isBlank_of_blanks {t : Text} (h : Literal.Blanks t) : ∀ c ∈ t, isBlank c = true := by
  intro c hc
  rcases h.cases hc with rfl | rfl | rfl | rfl <;> decide

theorem ends_of_isBlank {t : Text} (h : ∀ c ∈ t, isBlank c = true) : Numeral.Ends t := by
  intro c hc
  have hblank := h c (List.mem_of_mem_head? hc)
  have hne : ∀ {d : Char}, isBlank d = false → c ≠ d := fun hd => Text.ne_of_class hblank hd
  refine ⟨?_, hne (by decide), hne (by decide), hne (by decide)⟩
  rw [← Bool.not_eq_true, isDigitIn_ten_iff]
  intro hdigit
  simp only [isBlank, Bool.or_eq_true, Bool.and_eq_true, decide_eq_true_eq, beq_iff_eq] at hblank
  omega

theorem jsonValue?_start {depth : Nat} {t rest : Text} {tree : Json.Tree}
    (h : Json.value? depth t = some (tree, rest)) (htree : tree ≠ .atom) :
    ∃ c u, t = c :: u ∧ isBlank c = false := by
  cases depth with
  | zero => simp [Json.value?] at h
  | succ depth =>
    cases t with
    | nil => simp [Json.value?] at h
    | cons c u =>
      refine ⟨c, u, rfl, ?_⟩
      rw [Json.value?] at h
      dsimp only at h
      split at h
      · next hc =>
        rw [hc]
        decide
      split at h
      · next hc =>
        rw [hc]
        decide
      split at h
      · next hc =>
        rw [hc]
        decide
      · obtain ⟨rest', -, heq⟩ := Option.map_eq_some_iff.1 h
        exact absurd (Prod.mk.inj heq).1.symm htree

/-- A text that begins with no white space starts with its value as a literal, whatever white space
follows. -/
theorem value?_of_read_trimEnd {s : Text} {v : Value} (hstart : ∀ c ∈ s.head?, isBlank c = false)
    (h : Literal.read (Text.trimEnd s) = .ok v) :
    ∃ depth rest, Literal.value? depth s = some (v, rest) := by
  obtain ⟨w, hw, hend⟩ := Text.exists_dropWhileEnd isBlank s
  obtain ⟨a, u, b, htrim, ha, hu, hb⟩ := Literal.padded_iff.1 (Literal.read_sound h)
  change s = Text.trimEnd s ++ w at hend
  rw [htrim] at hend
  -- the blanks before the value are empty, since the text begins with none
  obtain rfl : a = [] := by
    cases a with
    | nil => rfl
    | cons c a =>
      have hc := hstart c (by rw [hend]; rfl)
      rw [isBlank_of_blanks ha c List.mem_cons_self] at hc
      exact absurd hc (by decide)
  have hends : Numeral.Ends (b ++ w) := ends_of_isBlank fun c hc => by
    rcases List.mem_append.1 hc with hc | hc
    · exact isBlank_of_blanks hb c hc
    · exact hw c hc
  refine ⟨u.length, b ++ w, ?_⟩
  rw [hend, List.nil_append, List.append_assoc]
  exact Literal.value?_complete hu (Nat.le_refl _) hends

/-- **The tree of a line describes its value as a literal**, if it is a string, an array or an object. -/
theorem describes_of_read {line : Text} {tree : Json.Tree} {v : Value} (htree : tree ≠ .atom)
    (hjson : Json.read? line = some tree) (hliteral : Literal.read (Text.trim line) = .ok v) :
    Describes tree v := by
  obtain ⟨a, ha, hline⟩ := Literal.exists_blanks line
  rw [Json.read?] at hjson
  split at hjson
  · simp at hjson
  · next tree' rest hvalue =>
    split at hjson
    · obtain rfl := Option.some.inj hjson
      obtain ⟨c, u, hcu, hc⟩ := jsonValue?_start hvalue htree
      have hstart : ∀ d ∈ (Text.skipBlanks line).head?, isBlank d = false := by
        rw [hcu]
        rintro d ⟨⟩
        exact hc
      -- what is trimmed at the start of the line are plain blanks
      have htrim : Text.trim line = Text.trimEnd (Text.skipBlanks line) := by
        rw [Text.trim_eq, Text.trimStart]
        nth_rewrite 1 [hline]
        rw [Text.dropWhile_append_of_stop (isBlank_of_blanks ha) hstart]
      rw [htrim] at hliteral
      obtain ⟨depth, rest', hread⟩ := value?_of_read_trimEnd hstart hliteral
      exact (value?_agree _ _ hvalue hread).2
    · simp at hjson

/-- **Trying JSON first is not observable on a line that is a literal**: the line is decoded to the
rules that its value lists, or refused because this value lists none. -/
theorem decode_of_read {line : Text} {v : Value} (h : Literal.read (Text.trim line) = .ok v) :
    decode line = (ofValue v).mapError .mismatch ∧
      (∀ rules, decode line = .ok ⟨rules⟩ ↔ Lists v rules) ∧
      ((∀ rules, ¬ Lists v rules) → ∃ e, decode line = .error (.mismatch e)) := by
  have hdecode : decode line = (ofValue v).mapError .mismatch := by
    rw [decode]
    cases htree : (Json.read? line).bind ofTree? with
    | some attempt =>
      obtain ⟨tree, hread, hattempt⟩ := Option.bind_eq_some_iff.1 htree
      -- an attempt comes from an array or an object
      have hatom : tree ≠ .atom := by
        rintro rfl
        simp [ofTree?] at hattempt
      have hlists := lists_of_ofTree? (describes_of_read hatom hread h) hattempt
      rw [ofValue_eq_ok_iff.2 hlists]
      rfl
    | none =>
      simp only [h]
      cases ofValue v <;> rfl
  refine ⟨hdecode, fun rules => ?_, fun hno => ?_⟩
  · rw [hdecode, ← ofValue_eq_ok_iff]
    cases ofValue v <;> simp [Except.mapError]
  · cases hvalue : ofValue v with
    | error e => exact ⟨e, by rw [hdecode, hvalue]; rfl⟩
    | ok attempt => exact absurd (ofValue_eq_ok_iff.1 hvalue) (hno attempt.rules)

/-- JSON and the literal syntax spell the rule differently from its text, but both alike. -/
theorem decode_of_read_escaped :
    let line := " \x7b\"score\": 2, \"rules\": [\"\\u0070(x)\"]\x7d\r\n".toList
    decode line = .ok ⟨[['p', '(', 'x', ')']]⟩ := by
  intro line
  have h : Literal.read (Text.trim line) = .ok (.object [
      (rulesKey, .array [.string ['p', '(', 'x', ')']]),
      (['s', 'c', 'o', 'r', 'e'], .int 2)]) := by
    rfl
  exact ((decode_of_read h).2.1 [['p', '(', 'x', ')']]).2 (.object rfl)

end Attempt

end MinedRules
