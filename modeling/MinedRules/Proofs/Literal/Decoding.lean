import MinedRules.Proofs.Literal.Items
import MinedRules.Proofs.Literal.Numerals
import MinedRules.Proofs.Literal.Strings
import MinedRules.Proofs.Value.Entries

/-!
# Literals are read as their grammar says

* `value?_sound` : what the reader takes from a text is a core with the value that it gives.
* `value?_complete` : the reader takes all of a core, wherever it ends, if it may go deep enough.
  A core of `n` characters does not nest more than `n` deep.
* `value?_closed` : what follows a container or a string has no part in this.
* `read_eq_ok_iff` : **the texts that are read, and their values, are those of the grammar.**

Both directions follow the nesting: the items of a container are read with one level less.
-/

namespace MinedRules

namespace Literal

/-! ### Objects -/

theorem keyText_iff {k : Value} {t : Text} : KeyText k t ↔ keyText k = t := by
  constructor
  · rintro (_ | ⟨hno, hcompact⟩)
    · rfl
    · rw [(Value.compact_iff k t).1 hcompact]
      cases k with
      | string s => exact absurd rfl (hno s)
      | _ => rfl
  · rintro rfl
    cases k with
    | string s => exact .string
    | _ => exact .other nofun ((Value.compact_iff _ _).2 rfl)

/-- The value of the last entry whose key has the given text. -/
def lastValue? (key : Text) (entries : List (Value × Value)) : Option Value :=
  (entries.reverse.find? fun e => keyText e.1 == key).map Prod.snd

theorem lastValue?_cons (key : Text) (e : Value × Value) (es : List (Value × Value)) :
    lastValue? key (e :: es) =
      (lastValue? key es).or (if keyText e.1 = key then some e.2 else none) := by
  rw [lastValue?, lastValue?, List.reverse_cons, List.find?_append, Option.map_or,
    List.find?_singleton]
  by_cases hkey : keyText e.1 = key
  · simp [hkey]
  · simp [hkey]

theorem isLast_iff {key : Text} {es : List (Value × Value)} {v : Value} :
    IsLast key es v ↔ lastValue? key es = some v := by
  constructor
  · rintro ⟨before, k, after, rfl, hk, hafter⟩
    have hfind : ((before ++ (k, v) :: after).reverse.find? fun e => keyText e.1 == key) =
        some (k, v) := by
      refine List.find?_eq_some_iff_append.2
        ⟨beq_iff_eq.2 (keyText_iff.1 hk), after.reverse, before.reverse, by simp, fun e he => ?_⟩
      have hne := hafter e (List.mem_reverse.1 he)
      rw [keyText_iff] at hne
      simpa using hne
    rw [lastValue?, hfind]
    rfl
  · intro h
    obtain ⟨⟨k, w⟩, hfind, rfl⟩ := Option.map_eq_some_iff.1 h
    obtain ⟨hk, after, before, hreverse, hafter⟩ := List.find?_eq_some_iff_append.1 hfind
    refine ⟨before.reverse, k, after.reverse, ?_, keyText_iff.2 (beq_iff_eq.1 hk), fun e he => ?_⟩
    · rw [← List.reverse_reverse es, hreverse]
      simp
    · rw [keyText_iff]
      simpa using hafter e (List.mem_reverse.1 he)

/-- The fields of an object, where `fields` are those of the entries before. -/
def insertAll (fields : List (Text × Value)) (es : List (Value × Value)) : List (Text × Value) :=
  es.foldl (fun fields (key, v) => Value.insertEntry (keyText key) v fields) fields

theorem field?_insertAll (key : Text) (fields : List (Text × Value)) (es : List (Value × Value)) :
    Value.field? key (insertAll fields es) = (lastValue? key es).or (Value.field? key fields) := by
  induction es generalizing fields with
  | nil => rfl
  | cons e es ih =>
    rw [insertAll, List.foldl_cons, ← insertAll, ih, Value.field?_insertEntry, lastValue?_cons,
      Option.or_assoc]
    split <;> rfl

theorem ascending_insertAll {fields : List (Text × Value)} (h : Value.Ascending fields)
    (es : List (Value × Value)) : Value.Ascending (insertAll fields es) := by
  induction es generalizing fields with
  | nil => exact h
  | cons e es ih => exact ih (h.insertEntry _ _)

theorem field?_insertAll_nil (key : Text) (es : List (Value × Value)) :
    Value.field? key (insertAll [] es) = lastValue? key es := by
  rw [field?_insertAll, Value.field?, Option.or_none]

theorem isObject_insertAll (es : List (Value × Value)) : IsObject es (insertAll [] es) where
  ascending := ascending_insertAll .nil es
  mem_iff key v := by
    rw [Value.mem_iff_field? (ascending_insertAll .nil es), field?_insertAll_nil, isLast_iff]

/-- **The fields of an object are those of its entries, the last of every key.** -/
theorem object_eq_iff {es : List (Value × Value)} {fields : List (Text × Value)} :
    object es = .object fields ↔ IsObject es fields := by
  have hobject : object es = .object (insertAll [] es) := rfl
  rw [hobject, Value.object.injEq]
  constructor
  · rintro rfl
    exact isObject_insertAll es
  · intro h
    have hall := isObject_insertAll es
    refine Text.eq_of_pairwise_before hall.ascending h.ascending fun (key, v) => ?_
    rw [hall.mem_iff, h.mem_iff]

/-! ### Padding -/

section Padding

variable {α : Type} {R : Text → α → Prop} {item? : Text → Option (α × Text)}

theorem sound_padded (h : ∀ {t x rest}, item? t = some (x, rest) → ∃ u, R u x ∧ t = u ++ rest) :
    Sound (Padded R) item? := by
  intro t x rest hread
  obtain ⟨a, ha, ht⟩ := exists_blanks t
  obtain ⟨b, hb, hrest⟩ := exists_blanks rest
  obtain ⟨u, hu, htu⟩ := h hread
  refine ⟨_, .intro ha hu hb, ?_⟩
  rw [List.append_assoc, ← hrest, List.append_assoc, ← htu, ← ht]

theorem isPlainBlank_cases {c : Char} (h : isPlainBlank c = true) :
    c = ' ' ∨ c = '\t' ∨ c = '\r' ∨ c = '\n' := by
  simpa [isPlainBlank, or_assoc] using h

theorem ends_blanks {b t : Text} (hb : Blanks b) (ht : Numeral.Ends t) : Numeral.Ends (b ++ t) := by
  cases b with
  | nil => exact ht
  | cons c b =>
    rintro d ⟨⟩
    rcases hb.cases List.mem_cons_self with rfl | rfl | rfl | rfl <;> decide

theorem ends_stop {c : Char} (hc : isStop c = true) (t : Text) : Numeral.Ends (c :: t) := by
  rintro d ⟨⟩
  rcases isStop_cases hc with rfl | rfl | rfl | rfl | rfl <;> decide

/-- The reader takes all of an item of at most `size` characters where a numeral would end, and an
item begins neither with a blank nor with a stop. -/
theorem complete_padded {size : Nat}
    (hstart : ∀ {u x}, R u x → ∃ c w, u = c :: w ∧ isPlainBlank c = false ∧ isStop c = false)
    (hread : ∀ {u x}, R u x → u.length ≤ size → ∀ {rest}, Numeral.Ends rest →
      item? (u ++ rest) = some (x, rest)) : Complete size (Padded R) item? := by
  have hskip : ∀ {a u b : Text} {x : α}, Blanks a → R u x → ∀ t,
      Text.skipBlanks (a ++ u ++ b ++ t) = u ++ (b ++ t) := by
    intro a u b x ha hu t
    obtain ⟨c, w, rfl, hc, -⟩ := hstart hu
    rw [List.append_assoc, List.append_assoc, skipBlanks_append ha, skipBlanks_eq_self]
    rintro d ⟨⟩
    exact hc
  constructor
  · rintro _ x ⟨ha, hu, hb⟩ hsize c hc t
    rw [List.length_append, List.length_append] at hsize
    refine ⟨_, ?_, skipBlanks_stop hb hc⟩
    rw [hskip ha hu]
    exact hread hu (by omega) (ends_blanks hb (ends_stop hc t))
  · rintro _ x ⟨ha, hu, hb⟩ t
    obtain ⟨c, w, rfl, -, hc⟩ := hstart hu
    exact ⟨c, _, hskip ha hu t, hc⟩

end Padding

/-! ### Cores -/

theorem spelled_start {t : Text} {n : Numeral} (h : Numeral.Spelled t n) :
    ∃ c u, t = c :: u ∧ (c = '+' ∨ c = '-' ∨ isDigitIn 10 c = true) := by
  obtain ⟨hs, hwhole, -, -⟩ := h
  cases hs with
  | plus => exact ⟨_, _, rfl, .inl rfl⟩
  | minus => exact ⟨_, _, rfl, .inr (.inl rfl)⟩
  | absent =>
    obtain ⟨hne, hdigits⟩ := Numeral.isDigits_iff.1 hwhole
    obtain ⟨c, whole, rfl⟩ := List.exists_cons_of_ne_nil hne
    exact ⟨c, _, rfl, .inr (.inr (hdigits c List.mem_cons_self))⟩

theorem ne_of_start {c d : Char} (hc : c = '+' ∨ c = '-' ∨ isDigitIn 10 c = true)
    (hd : ¬ (d = '+' ∨ d = '-' ∨ isDigitIn 10 d = true)) : c ≠ d := by
  rintro rfl
  exact hd hc

theorem core_start {t : Text} {v : Value} (h : Core t v) :
    ∃ c u, t = c :: u ∧ isPlainBlank c = false ∧ isStop c = false := by
  cases h with
  | list => exact ⟨_, _, rfl, by decide, by decide⟩
  | tuple => exact ⟨_, _, rfl, by decide, by decide⟩
  | dict => exact ⟨_, _, rfl, by decide, by decide⟩
  | string hquote => rcases hquote with rfl | rfl <;> exact ⟨_, _, rfl, by decide, by decide⟩
  | number hspelled =>
    obtain ⟨c, u, rfl, hc⟩ := spelled_start hspelled
    refine ⟨c, u, rfl, ?_, ?_⟩
    · rw [← Bool.not_eq_true]
      intro hblank
      rcases isPlainBlank_cases hblank with rfl | rfl | rfl | rfl <;>
        exact ne_of_start hc (by decide) rfl
    · rw [← Bool.not_eq_true]
      intro hstop
      rcases isStop_cases hstop with rfl | rfl | rfl | rfl | rfl <;>
        exact ne_of_start hc (by decide) rfl
  | true => exact ⟨_, _, rfl, by decide, by decide⟩
  | false => exact ⟨_, _, rfl, by decide, by decide⟩
  | none => exact ⟨_, _, rfl, by decide, by decide⟩

theorem atom?_sound {t rest : Text} {v : Value} (h : atom? t = some (v, rest)) :
    ∃ u, Core u v ∧ t = u ++ rest := by
  rw [atom?] at h
  split at h
  · next n rest' hn =>
    obtain ⟨v', hv, heq⟩ := Option.map_eq_some_iff.1 h
    obtain ⟨rfl, rfl⟩ := Prod.mk.inj heq
    obtain ⟨u, hu, rfl⟩ := Numeral.read?_sound hn
    exact ⟨u, .number hu ((Numeral.value?_eq_some_iff hu).1 hv), rfl⟩
  · unfold name? at h
    split at h
    · obtain ⟨rfl, rfl⟩ := Prod.mk.inj (Option.some.inj h)
      exact ⟨_, .true, rfl⟩
    · obtain ⟨rfl, rfl⟩ := Prod.mk.inj (Option.some.inj h)
      exact ⟨_, .false, rfl⟩
    · obtain ⟨rfl, rfl⟩ := Prod.mk.inj (Option.some.inj h)
      exact ⟨_, .none, rfl⟩
    · simp at h

/-- **What the reader takes from a text is a core.** -/
theorem value?_sound {depth : Nat} {t rest : Text} {v : Value}
    (h : value? depth t = some (v, rest)) : ∃ u, Core u v ∧ t = u ++ rest := by
  induction depth generalizing t rest v with
  | zero => simp [value?] at h
  | succ depth ih =>
    -- what stands between brackets is read with one level less
    have hitem : Sound (Padded Core) (value? depth) := sound_padded ih
    cases t with
    | nil => simp [value?] at h
    | cons c t =>
      rw [value?] at h
      dsimp only at h
      split at h
      · next hc =>
        obtain ⟨vs, hitems, rfl⟩ := exists_of_map Value.array h
        obtain ⟨u, hu, rfl⟩ := items?_sound hitem hitems
        exact ⟨_, .list hu, by simp [hc]⟩
      split at h
      · next hc =>
        obtain ⟨vs, hitems, rfl⟩ := exists_of_map Value.array h
        obtain ⟨u, hu, rfl⟩ := items?_sound hitem hitems
        exact ⟨_, .tuple hu, by simp [hc]⟩
      split at h
      · next hc =>
        obtain ⟨es, hitems, rfl⟩ := exists_of_map object h
        obtain ⟨u, hu, rfl⟩ := items?_sound hitem.pair hitems
        exact ⟨_, .dict hu (isObject_insertAll es), by simp [hc]⟩
      split at h
      · next hc =>
        obtain ⟨s, hread, rfl⟩ := exists_of_map Value.string h
        obtain ⟨u, hu, rfl⟩ := Quotation.read?_sound hread
        exact ⟨_, .string hc hu, by simp⟩
      · exact atom?_sound h

theorem value?_atom {c : Char} {t : Text} (depth : Nat)
    (hc : c ∉ ['[', '(', '\x7b', '\'', '"']) : value? (depth + 1) (c :: t) = atom? (c :: t) := by
  simp only [List.mem_cons, List.not_mem_nil, or_false, not_or] at hc
  obtain ⟨h1, h2, h3, h4, h5⟩ := hc
  rw [value?]
  dsimp only
  rw [if_neg h1, if_neg h2, if_neg h3, if_neg (not_or.2 ⟨h4, h5⟩)]

theorem value?_number {t rest : Text} {n : Numeral} {v : Value} (hspelled : Numeral.Spelled t n)
    (hvalue : n.HasValue v) (hends : Numeral.Ends rest) (depth : Nat) :
    value? (depth + 1) (t ++ rest) = some (v, rest) := by
  have hread := Numeral.read?_complete hspelled hends
  replace hvalue := (Numeral.value?_eq_some_iff hspelled).2 hvalue
  obtain ⟨c, u, rfl, hc⟩ := spelled_start hspelled
  have hne : c ∉ ['[', '(', '\x7b', '\'', '"'] := by
    intro hmem
    simp only [List.mem_cons, List.not_mem_nil, or_false] at hmem
    rcases hmem with rfl | rfl | rfl | rfl | rfl <;> exact ne_of_start hc (by decide) rfl
  rw [List.cons_append] at hread ⊢
  rw [value?_atom depth hne, atom?, hread]
  simp only [hvalue, Option.map_some]

theorem value?_quote {quote : Char} (hquote : quote = '\'' ∨ quote = '"') (depth : Nat) (t : Text) :
    value? (depth + 1) (quote :: t) =
      (Quotation.read? quote t).map fun (s, rest) => (.string s, rest) := by
  have h1 : quote ≠ '[' := by rcases hquote with rfl | rfl <;> decide
  have h2 : quote ≠ '(' := by rcases hquote with rfl | rfl <;> decide
  have h3 : quote ≠ '\x7b' := by rcases hquote with rfl | rfl <;> decide
  rw [value?]
  dsimp only
  rw [if_neg h1, if_neg h2, if_neg h3, if_pos hquote]

/-! ### Closed cores -/

/-- A character that ends a container or a string. -/
def isClosing (c : Char) : Bool := [']', ')', '\x7d', '\'', '"'].contains c

/-- The text ends with a closing character. -/
def EndsClosed (t : Text) : Prop := ∃ c ∈ t.getLast?, isClosing c = true

theorem endsClosed_concat (t : Text) {c : Char} (hc : isClosing c = true) :
    EndsClosed (t ++ [c]) :=
  ⟨c, List.getLast?_concat, hc⟩

theorem isClosing_cases {c : Char} (h : isClosing c = true) :
    c = ']' ∨ c = ')' ∨ c = '\x7d' ∨ c = '\'' ∨ c = '"' := by
  simpa [isClosing] using h

theorem mem_spelled {t : Text} {n : Numeral} (h : Numeral.Spelled t n) {c : Char} (hc : c ∈ t) :
    isDigitIn 10 c = true ∨ c ∈ ['+', '-', '.', 'e', 'E'] := by
  obtain ⟨hs, hwhole, hf, he⟩ := h
  have hsign : ∀ {s : Text} {negative : Bool}, Numeral.Sign s negative → c ∈ s →
      c ∈ ['+', '-', '.', 'e', 'E'] := by
    rintro _ _ (_ | _ | _) <;> simp +contextual
  rcases List.mem_append.1 hc with hc | hc
  · rcases List.mem_append.1 hc with hc | hc
    · rcases List.mem_append.1 hc with hc | hc
      · exact .inr (hsign hs hc)
      · exact .inl ((Numeral.isDigits_iff.1 hwhole).2 c hc)
    · cases hf with
      | absent => exact absurd hc List.not_mem_nil
      | point hdigits =>
        rcases List.mem_cons.1 hc with rfl | hc
        · exact .inr (by simp)
        · exact .inl ((isDigit_iff (by decide)).1 (hdigits c hc))
  · cases he with
    | absent => exact absurd hc List.not_mem_nil
    | power hletter hs _ hspells =>
      rcases List.mem_cons.1 hc with rfl | hc
      · exact .inr (by rcases hletter with rfl | rfl <;> simp)
      · rcases List.mem_append.1 hc with hc | hc
        · exact .inr (hsign hs hc)
        · exact .inl (((Text.spells_iff (by decide)).1 hspells).1 c hc)

theorem not_endsClosed_spelled {t : Text} {n : Numeral} (h : Numeral.Spelled t n) :
    ¬ EndsClosed t := by
  rintro ⟨c, hc, hclosing⟩
  have hmem := mem_spelled h (List.mem_of_mem_getLast? hc)
  rcases isClosing_cases hclosing with rfl | rfl | rfl | rfl | rfl <;> exact absurd hmem (by decide)

/-- A container or a string is read whatever follows it, if the reader takes all of its items. -/
theorem value?_closed_of_complete {depth : Nat} {u : Text} {v : Value}
    (hitem : Complete depth (Padded Core) (value? depth)) (h : Core u v) (hend : EndsClosed u)
    (hlength : u.length ≤ depth + 1) (rest : Text) :
    value? (depth + 1) (u ++ rest) = some (v, rest) := by
  cases h with
  | list ht =>
    simp only [List.length_cons, List.length_append] at hlength
    rw [List.cons_append, List.append_assoc, List.singleton_append, value?]
    dsimp only
    rw [if_pos rfl, items?_complete hitem (by decide) (by decide) ht (by omega), Option.map_some]
  | tuple ht =>
    simp only [List.length_cons, List.length_append] at hlength
    rw [List.cons_append, List.append_assoc, List.singleton_append, value?]
    dsimp only
    rw [if_neg (by decide), if_pos rfl,
      items?_complete hitem (by decide) (by decide) ht (by omega), Option.map_some]
  | dict ht hobject =>
    simp only [List.length_cons, List.length_append] at hlength
    rw [List.cons_append, List.append_assoc, List.singleton_append, value?]
    dsimp only
    rw [if_neg (by decide), if_neg (by decide), if_pos rfl,
      items?_complete hitem.pair (by decide) (by decide) ht (by omega), Option.map_some,
      object_eq_iff.2 hobject]
  | string hquote hbody =>
    rw [List.cons_append, List.append_assoc, List.singleton_append, value?_quote hquote,
      Quotation.read?_complete hbody hquote, Option.map_some]
  | number hspelled => exact absurd hend (not_endsClosed_spelled hspelled)
  | true => exact absurd hend (by simp [EndsClosed, isClosing])
  | false => exact absurd hend (by simp [EndsClosed, isClosing])
  | none => exact absurd hend (by simp [EndsClosed, isClosing])

/-- **The reader takes all of a core** if it may go as deep as the core is long. -/
theorem value?_complete {depth : Nat} {u : Text} {v : Value} (h : Core u v)
    (hdepth : u.length ≤ depth) {rest : Text} (hends : Numeral.Ends rest) :
    value? depth (u ++ rest) = some (v, rest) := by
  induction depth generalizing u v rest with
  | zero =>
    obtain ⟨c, w, rfl, -, -⟩ := core_start h
    simp at hdepth
  | succ depth ih =>
    -- a core between brackets is shorter than the container
    have hitem : Complete depth (Padded Core) (value? depth) := complete_padded core_start ih
    by_cases hend : EndsClosed u
    · exact value?_closed_of_complete hitem h hend hdepth rest
    cases h with
    | list => exact absurd (endsClosed_concat ('[' :: _) (by decide)) hend
    | tuple => exact absurd (endsClosed_concat ('(' :: _) (by decide)) hend
    | dict => exact absurd (endsClosed_concat ('\x7b' :: _) (by decide)) hend
    | @string quote _ _ hquote =>
      exact absurd (endsClosed_concat (quote :: _) (by rcases hquote with rfl | rfl <;> decide)) hend
    | number hspelled hvalue => exact value?_number hspelled hvalue hends depth
    | true => exact value?_atom depth (by decide)
    | false => exact value?_atom depth (by decide)
    | none => exact value?_atom depth (by decide)

/-- **A container or a string is read whatever follows it.** -/
theorem value?_closed {depth : Nat} {u : Text} {v : Value} (h : Core u v) (hend : EndsClosed u)
    (hdepth : u.length ≤ depth) (rest : Text) : value? depth (u ++ rest) = some (v, rest) := by
  cases depth with
  | zero =>
    obtain ⟨c, w, rfl, -, -⟩ := core_start h
    simp at hdepth
  | succ depth =>
    exact value?_closed_of_complete (complete_padded core_start fun hu => value?_complete hu) h hend
      hdepth rest

/-! ### Whole texts -/

theorem skipBlanks_blanks {b : Text} (hb : Blanks b) : Text.skipBlanks b = [] := by
  rw [← List.append_nil b, skipBlanks_append hb]
  rfl

theorem read_sound {t : Text} {v : Value} (h : read t = .ok v) : Padded Core t v := by
  obtain ⟨a, ha, ht⟩ := exists_blanks t
  rw [read] at h
  split at h
  · simp at h
  · next v' rest hvalue =>
    obtain ⟨u, hu, hstart⟩ := value?_sound hvalue
    obtain ⟨b, hb, hrest⟩ := exists_blanks rest
    split at h
    · next hnil =>
      obtain rfl := Except.ok.inj h
      rw [hnil, List.append_nil] at hrest
      rw [ht, hstart, hrest, ← List.append_assoc]
      exact .intro ha hu hb
    · simp at h

theorem skipBlanks_core {a u : Text} {v : Value} (ha : Blanks a) (hu : Core u v) (t : Text) :
    Text.skipBlanks (a ++ u ++ t) = u ++ t := by
  obtain ⟨c, w, rfl, hc, -⟩ := core_start hu
  rw [List.append_assoc, skipBlanks_append ha, skipBlanks_eq_self]
  rintro d ⟨⟩
  exact hc

theorem read_complete {a u b : Text} {v : Value} (ha : Blanks a) (hu : Core u v) (hb : Blanks b) :
    read (a ++ u ++ b) = .ok v := by
  have hends : Numeral.Ends b := by
    rw [← List.append_nil b]
    exact ends_blanks hb (by simp [Numeral.Ends])
  have hdepth : u.length ≤ (a ++ u ++ b).length + 1 := by
    simp only [List.length_append]
    omega
  have hvalue := value?_complete hu hdepth hends
  rw [read]
  simp only [skipBlanks_core ha hu, hvalue, skipBlanks_blanks hb]

/-- **The texts that are read, and their values, are those of the grammar.** -/
theorem read_eq_ok_iff {t : Text} {v : Value} : read t = .ok v ↔ Padded Core t v :=
  ⟨read_sound, fun ⟨ha, hu, hb⟩ => read_complete ha hu hb⟩

end Literal

end MinedRules
