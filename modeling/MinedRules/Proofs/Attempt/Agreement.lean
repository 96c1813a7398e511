import MinedRules.Attempt.Decode
import MinedRules.Proofs.Literal.Numerals
import MinedRules.Proofs.Literal.Strings
import MinedRules.Proofs.Text.Readers

/-!
# Where JSON and literals agree

The reader of JSON and the reader of literals agree on the texts that both read: they stop at the
same place, and the tree that the one gives describes the value that the other gives
(`value?_agree`).

The formats differ in their strings, numbers, names and commas, but no text means one thing in the
one and something else in the other.
-/

namespace MinedRules

namespace Json

/-! ### The reader of JSON, by the start of the text -/

variable {t : Text}

theorem skipInteger?_zero (u : Text) :
    skipInteger? ('0' :: u) = if u.head?.any Char.isDigit then none else some u := by
  cases u <;> rfl

theorem skipInteger?_of_ne (h : ∀ u, t ≠ '0' :: u) : skipInteger? t = skipDigits? t := by
  unfold skipInteger?
  split
  · exact absurd rfl (h _)
  · rfl

theorem skipFraction?_of_ne (h : ∀ u, t ≠ '.' :: u) : skipFraction? t = some t := by
  unfold skipFraction?
  split
  · exact absurd rfl (h _)
  · rfl

theorem skipExponent?_cons (c : Char) (u : Text) : skipExponent? (c :: u) =
    if c = 'e' ∨ c = 'E' then skipDigits? (Text.spanSign u).2 else some (c :: u) := by
  rw [skipExponent?.eq_def]
  dsimp only
  split
  · split
    · rfl
    · rfl
    · next hplus hminus => rw [Numeral.spanSign_of_ne hminus hplus]
  · rfl

/-- The text after an integer, a fraction and an exponent. -/
def skipUnsigned? (t : Text) : Option Text :=
  ((skipInteger? t).bind skipFraction?).bind skipExponent?

theorem skipNumber?_minus (u : Text) : skipNumber? ('-' :: u) = skipUnsigned? u := rfl

theorem skipNumber?_of_ne (h : ∀ u, t ≠ '-' :: u) : skipNumber? t = skipUnsigned? t := by
  unfold skipNumber?
  dsimp only
  split
  · exact absurd rfl (h _)
  · rfl

/-- The names of JSON. -/
def names : List Text :=
  [['t', 'r', 'u', 'e'], ['f', 'a', 'l', 's', 'e'], ['n', 'u', 'l', 'l']]

theorem skipAtom?_name {name : Text} (h : name ∈ names) (u : Text) :
    skipAtom? (name ++ u) = some u := by
  simp only [names, List.mem_cons, List.not_mem_nil, or_false] at h
  rcases h with rfl | rfl | rfl <;> rfl

theorem skipAtom?_of_no_name (h : ∀ name ∈ names, ∀ u, t ≠ name ++ u) :
    skipAtom? t = skipNumber? t := by
  unfold skipAtom?
  split
  · exact absurd rfl (h ['t', 'r', 'u', 'e'] (by simp [names]) _)
  · exact absurd rfl (h ['f', 'a', 'l', 's', 'e'] (by simp [names]) _)
  · exact absurd rfl (h ['n', 'u', 'l', 'l'] (by simp [names]) _)
  · rfl

end Json

namespace Attempt

open Text (Agree Refuses)

theorem style_extends : Json.style.Extends Literal.style := ⟨rfl, rfl, rfl⟩

/-! ### Strings -/

theorem codePoint?_of_not_digit {c : Char} (hc : isDigitIn 8 c = false) (t : Text) :
    Quotation.codePoint? 8 1 3 (c :: t) = none := by
  simp [Quotation.codePoint?, hc]

theorem text?_char (c : Char) (s : List Json.Piece) :
    Json.text? (.char c :: s) = (Json.text? s).map (c :: ·) := rfl

theorem text?_unit {n : Nat} (hn : n.isValidChar) (s : List Json.Piece) :
    Json.text? (.unit n :: s) = (Json.text? s).map (Char.ofNat n :: ·) := by
  have hhigh : ¬ (0xD800 ≤ n ∧ n < 0xDC00) := by
    rcases hn with hn | hn <;> omega
  have hlow : ¬ (0xDC00 ≤ n ∧ n < 0xE000) := by
    rcases hn with hn | hn <;> omega
  rw [Json.text?.eq_def]
  simp only [if_neg hhigh, if_neg hlow]

theorem hex4?_agree {t : Text} {k l : Nat} {c : Char} (h₁ : Json.hex4? t = some k)
    (h₂ : Quotation.codePoint? 16 4 4 t = some (c, l)) :
    l = 4 ∧ ∀ s, Json.text? (.unit k :: s) = (Json.text? s).map (c :: ·) := by
  rw [Json.hex4?] at h₁
  rw [Quotation.codePoint?] at h₂
  split at h₁
  · next hlength =>
    split at h₂
    · next hvalid =>
      obtain ⟨rfl, rfl⟩ := Prod.mk.inj (Option.some.inj h₂)
      rw [← Option.some.inj h₁]
      exact ⟨hlength, text?_unit hvalid.2⟩
    · simp at h₂
  · simp at h₁

theorem escape?_agree {t : Text} {p : Json.Piece} {c : Char} {n m : Nat}
    (h₁ : Json.escape? t = some (p, n)) (h₂ : Quotation.escape? t = some (c, m)) :
    n = m ∧ ∀ s, Json.text? (p :: s) = (Json.text? s).map (c :: ·) := by
  have hchar : ∀ {x y : Char}, some (Json.Piece.char x, 1) = some (p, n) →
      some (y, 1) = some (c, m) → x = y →
      n = m ∧ ∀ s, Json.text? (p :: s) = (Json.text? s).map (c :: ·) := by
    rintro x _ heq₁ heq₂ rfl
    obtain ⟨rfl, rfl⟩ := Prod.mk.inj (Option.some.inj heq₁)
    obtain ⟨rfl, rfl⟩ := Prod.mk.inj (Option.some.inj heq₂)
    exact ⟨rfl, text?_char x⟩
  -- these letters begin an escape in JSON only
  have honly : ∀ {d : Char} {u : Text}, isDigitIn 8 d = false →
      Quotation.escape? (d :: u) = Quotation.codePoint? 8 1 3 (d :: u) → t ≠ d :: u := by
    rintro d u hd hescape rfl
    rw [hescape, codePoint?_of_not_digit hd] at h₂
    exact absurd h₂ (by simp)
  cases t with
  | nil => simp [Json.escape?] at h₁
  | cons d u =>
    rw [Json.escape?] at h₁
    split at h₁
    · next hd =>
      rcases hd with rfl | rfl | rfl
      · exact hchar h₁ h₂ rfl
      · exact hchar h₁ h₂ rfl
      · exact absurd rfl (honly (d := '/') (u := u) (by decide) rfl)
    split at h₁
    · next hd =>
      subst hd
      exact absurd rfl (honly (d := 'b') (u := u) (by decide) rfl)
    split at h₁
    · next hd =>
      subst hd
      exact absurd rfl (honly (d := 'f') (u := u) (by decide) rfl)
    split at h₁
    · next hd =>
      subst hd
      exact hchar h₁ h₂ rfl
    split at h₁
    · next hd =>
      subst hd
      exact hchar h₁ h₂ rfl
    split at h₁
    · next hd =>
      subst hd
      exact hchar h₁ h₂ rfl
    split at h₁
    · next hd =>
      subst hd
      obtain ⟨k, hk, heq₁⟩ := Option.map_eq_some_iff.1 h₁
      obtain ⟨rfl, rfl⟩ := Prod.mk.inj heq₁
      obtain ⟨⟨x, l⟩, hpoint, heq₂⟩ := Option.map_eq_some_iff.1 h₂
      obtain ⟨rfl, rfl⟩ := Prod.mk.inj heq₂
      obtain ⟨rfl, htext⟩ := hex4?_agree hk hpoint
      exact ⟨rfl, htext⟩
    · simp at h₁

/-- The parts of a JSON string make the text. -/
def Makes (pieces : List Json.Piece) (s : Text) : Prop := Json.text? pieces = some s

theorem Makes.cons {p : Json.Piece} {c : Char} {pieces : List Json.Piece} {s : Text}
    (hp : ∀ s, Json.text? (p :: s) = (Json.text? s).map (c :: ·)) (h : Makes pieces s) :
    Makes (p :: pieces) (c :: s) := by
  rw [Makes, hp, h, Option.map_some]

/-- **Where both readers of a string read a text, it is the same string.** -/
theorem string_agree (skip : Nat) : Agree Makes
    (Json.stringFrom? skip) (Quotation.readFrom? '"' skip) := by
  intro t pieces s rest₁ rest₂ h₁ h₂
  induction t generalizing skip pieces s with
  | nil => simp [Json.stringFrom?] at h₁
  | cons c t ih =>
    cases skip with
    | succ skip => exact ih skip h₁ h₂
    | zero =>
      rw [Json.stringFrom?] at h₁
      rw [Quotation.readFrom?] at h₂
      by_cases hquote : c = '"'
      · rw [if_pos hquote] at h₁ h₂
        obtain ⟨rfl, rfl⟩ := Prod.mk.inj (Option.some.inj h₁)
        obtain ⟨rfl, rfl⟩ := Prod.mk.inj (Option.some.inj h₂)
        exact ⟨rfl, rfl⟩
      rw [if_neg hquote] at h₁ h₂
      by_cases hslash : c = '\\'
      · rw [if_pos hslash] at h₁ h₂
        cases hp : Json.escape? t with
        | none => simp [hp] at h₁
        | some a =>
          cases hd : Quotation.escape? t with
          | none => simp [hd] at h₂
          | some b =>
            obtain ⟨p, n⟩ := a
            obtain ⟨d, m⟩ := b
            obtain ⟨rfl, htext⟩ := escape?_agree hp hd
            rw [hp] at h₁
            rw [hd] at h₂
            obtain ⟨pieces', hread₁, rfl⟩ := exists_of_map (p :: ·) h₁
            obtain ⟨s', hread₂, rfl⟩ := exists_of_map (d :: ·) h₂
            obtain ⟨hrest, hpieces⟩ := ih n hread₁ hread₂
            exact ⟨hrest, hpieces.cons htext⟩
      rw [if_neg hslash] at h₁ h₂
      split at h₁
      · simp at h₁
      · obtain ⟨pieces', hread₁, rfl⟩ := exists_of_map (Json.Piece.char c :: ·) h₁
        obtain ⟨s', hread₂, rfl⟩ := exists_of_map (c :: ·) h₂
        obtain ⟨hrest, hpieces⟩ := ih 0 hread₁ hread₂
        exact ⟨hrest, hpieces.cons (text?_char c)⟩

/-! ### Numbers -/

theorem isDigitIn_ten (c : Char) : isDigitIn 10 c = c.isDigit := by
  rw [Bool.eq_iff_iff, isDigitIn_ten_iff, Char.isDigit, Bool.and_eq_true, decide_eq_true_eq,
    decide_eq_true_eq]
  rfl

theorem skipDigits?_eq_some {t rest : Text} (h : Json.skipDigits? t = some rest) :
    (Text.spanDigits 10 t).1 ≠ [] ∧ (Text.spanDigits 10 t).2 = rest := by
  have hdigit : isDigitIn 10 = Char.isDigit := funext isDigitIn_ten
  cases t with
  | nil => simp [Json.skipDigits?] at h
  | cons c t =>
    rw [Json.skipDigits?] at h
    split at h
    · next hc =>
      obtain rfl := Option.some.inj h
      rw [Text.spanDigits, hdigit, List.takeWhile_cons_of_pos hc, List.dropWhile_cons_of_pos hc]
      exact ⟨List.cons_ne_nil _ _, rfl⟩
    · simp at h

theorem skipInteger?_eq_some {t rest : Text} (h : Json.skipInteger? t = some rest) :
    (Text.spanDigits 10 t).1 ≠ [] ∧ (Text.spanDigits 10 t).2 = rest := by
  by_cases hzero : ∃ u, t = '0' :: u
  · obtain ⟨u, rfl⟩ := hzero
    rw [Json.skipInteger?_zero] at h
    split at h
    · simp at h
    · next hhead =>
      obtain rfl := Option.some.inj h
      have hstop : ∀ c ∈ u.head?, isDigitIn 10 c = false := by
        intro c hc
        rw [isDigitIn_ten]
        rw [Option.mem_def.1 hc] at hhead
        exact Bool.eq_false_iff.2 hhead
      have hdigits := @Numeral.spanDigits_append ['0'] u
        (List.forall_mem_singleton.2 (by decide)) hstop
      rw [List.singleton_append] at hdigits
      rw [hdigits]
      exact ⟨List.cons_ne_nil _ _, rfl⟩
  · rw [Json.skipInteger?_of_ne fun u hu => hzero ⟨u, hu⟩] at h
    exact skipDigits?_eq_some h

theorem skipFraction?_eq_some {t rest : Text} (h : Json.skipFraction? t = some rest) :
    (Numeral.readFraction t).2 = rest := by
  unfold Json.skipFraction? at h
  split at h
  · next u => exact (skipDigits?_eq_some h).2
  · next hdot =>
    obtain rfl := Option.some.inj h
    unfold Numeral.readFraction
    split
    · exact absurd rfl (hdot _)
    · rfl

theorem skipExponent?_eq_some {t rest : Text} (h : Json.skipExponent? t = some rest) :
    (Numeral.readExponent t).2 = rest := by
  cases t with
  | nil =>
    obtain rfl := Option.some.inj h
    rfl
  | cons c u =>
    rw [Json.skipExponent?_cons] at h
    rw [Numeral.readExponent]
    by_cases hc : c = 'e' ∨ c = 'E'
    · rw [if_pos hc] at h ⊢
      obtain ⟨hne, hrest⟩ := skipDigits?_eq_some h
      dsimp only
      rw [if_neg (by simpa using hne)]
      exact hrest
    · rw [if_neg hc] at h ⊢
      exact Option.some.inj h

/-- JSON knows no plus before a number. -/
theorem spanSign_of_skipNumber? {t rest : Text} (h : Json.skipNumber? t = some rest) :
    Json.skipUnsigned? (Text.spanSign t).2 = some rest := by
  by_cases hminus : ∃ u, t = '-' :: u
  · obtain ⟨u, rfl⟩ := hminus
    exact (Json.skipNumber?_minus u).symm.trans h
  · have hne : ∀ u, t ≠ '-' :: u := fun u hu => hminus ⟨u, hu⟩
    have hplus : ∀ u, t ≠ '+' :: u := by
      rintro u rfl
      have hnone : Json.skipNumber? ('+' :: u) = none := rfl
      exact absurd (hnone.symm.trans h) (by simp)
    rw [Numeral.spanSign_of_ne hne hplus]
    exact (Json.skipNumber?_of_ne hne).symm.trans h

/-- **A JSON number is a numeral**, with the same end. -/
theorem read?_of_skipNumber? {t rest : Text} (h : Json.skipNumber? t = some rest) :
    ∃ n, Numeral.read? t = some (n, rest) := by
  obtain ⟨r₂, hr₂, hexponent⟩ := Option.bind_eq_some_iff.1 (spanSign_of_skipNumber? h)
  obtain ⟨r₁, hr₁, hfraction⟩ := Option.bind_eq_some_iff.1 hr₂
  obtain ⟨hne, hwhole⟩ := skipInteger?_eq_some hr₁
  refine ⟨⟨(Text.spanSign t).1, (Text.spanDigits 10 (Text.spanSign t).2).1,
    (Numeral.readFraction r₁).1, (Numeral.readExponent r₂).1⟩, ?_⟩
  rw [Numeral.read?]
  dsimp only
  rw [if_neg (by simpa using hne), hwhole, skipFraction?_eq_some hfraction,
    skipExponent?_eq_some hexponent]

theorem atom?_name {name : Text} (h : name ∈ Json.names) (u : Text) :
    Literal.atom? (name ++ u) = none := by
  simp only [Json.names, List.mem_cons, List.not_mem_nil, or_false] at h
  rcases h with rfl | rfl | rfl <;> rfl

theorem atom?_agree {t rest₁ rest₂ : Text} {v : Value} (h₁ : Json.skipAtom? t = some rest₁)
    (h₂ : Literal.atom? t = some (v, rest₂)) : rest₁ = rest₂ := by
  have hno : ∀ name ∈ Json.names, ∀ u, t ≠ name ++ u := by
    rintro name hname u rfl
    exact absurd ((atom?_name hname u).symm.trans h₂) (by simp)
  rw [Json.skipAtom?_of_no_name hno] at h₁
  obtain ⟨n, hn⟩ := read?_of_skipNumber? h₁
  rw [Literal.atom?, hn] at h₂
  obtain ⟨w, -, heq⟩ := Option.map_eq_some_iff.1 h₂
  exact (Prod.mk.inj heq).2

/-! ### Values -/

/-- An entry whose key and value are related to those of another one. -/
inductive SameEntry (R : Json.Tree → Value → Prop) : List Json.Piece × Json.Tree → Value × Value → Prop
  | intro {pieces : List Json.Piece} {tree : Json.Tree} {key v : Value} :
      Makes pieces (Literal.keyText key) → R tree v → SameEntry R (pieces, tree) (key, v)

/-- The tree of a value, as far as records need it: strings, arrays and objects. -/
inductive Describes : Json.Tree → Value → Prop
  | atom {v : Value} : Describes .atom v
  | string {pieces : List Json.Piece} {s : Text} : Makes pieces s →
      Describes (.string pieces) (.string s)
  | array {trees : List Json.Tree} {vs : List Value} : List.Forall₂ Describes trees vs →
      Describes (.array trees) (.array vs)
  | object {entries : List (List Json.Piece × Json.Tree)} {es : List (Value × Value)} :
      List.Forall₂ (SameEntry Describes) entries es → Describes (.object entries) (Literal.object es)

theorem pair?_agree {value₁ : Text → Option (Json.Tree × Text)} {depth : Nat}
    (h : Agree Describes value₁ (Literal.value? depth)) :
    Agree (SameEntry Describes) (Json.pair? value₁)
      (Literal.pair? (Literal.value? depth)) := by
  intro t x y rest₁ rest₂ h₁ h₂
  unfold Json.pair? at h₁
  split at h₁
  · next u =>
    cases depth with
    | zero => simp [Literal.pair?, Literal.value?] at h₂
    | succ depth =>
      -- a key in JSON is a string
      have hkey : Literal.value? (depth + 1) ('"' :: u) =
          (Quotation.read? '"' u).map fun p => (.string p.1, p.2) := rfl
      rw [Literal.pair?, hkey] at h₂
      cases hread₁ : Json.stringFrom? 0 u with
      | none => simp [hread₁] at h₁
      | some a =>
        cases hread₂ : Quotation.read? '"' u with
        | none => simp [hread₂] at h₂
        | some b =>
          obtain ⟨pieces, r₁⟩ := a
          obtain ⟨s, r₂⟩ := b
          obtain ⟨rfl, hmakes⟩ := string_agree 0 hread₁ hread₂
          simp only [hread₁] at h₁
          simp only [hread₂, Option.map_some] at h₂
          split at h₁
          · next w hw =>
            simp only [hw] at h₂
            obtain ⟨tree, hvalue₁, rfl⟩ := exists_of_map (pieces, ·) h₁
            obtain ⟨v, hvalue₂, rfl⟩ := exists_of_map (Value.string s, ·) h₂
            obtain ⟨hrest, hdescribes⟩ := h hvalue₁ hvalue₂
            exact ⟨hrest, .intro hmakes hdescribes⟩
          · simp at h₁
  · simp at h₁

theorem refuses_value? (depth : Nat) : Refuses ']' (Json.value? depth) := by
  rintro c t (rfl | rfl) <;> cases depth <;> rfl

theorem refuses_pair? (value? : Text → Option (Json.Tree × Text)) :
    Refuses '\x7d' (Json.pair? value?) := by
  rintro c t (rfl | rfl) <;> rfl

/-- No number or name of JSON begins with what opens a tuple or a string in single quotes. -/
theorem ne_of_skipAtom? {c : Char} {u rest : Text} (h : Json.skipAtom? (c :: u) = some rest) :
    c ≠ '(' ∧ c ≠ '\'' := by
  constructor
  · rintro rfl
    have hnone : Json.skipAtom? ('(' :: u) = none := rfl
    exact absurd (hnone.symm.trans h) (by simp)
  · rintro rfl
    have hnone : Json.skipAtom? ('\'' :: u) = none := rfl
    exact absurd (hnone.symm.trans h) (by simp)

/-- **Where JSON and literals both read a text, they agree on it.** -/
theorem value?_agree (depth₁ depth₂ : Nat) :
    Agree Describes (Json.value? depth₁) (Literal.value? depth₂) := by
  induction depth₁ generalizing depth₂ with
  | zero =>
    intro t x y rest₁ rest₂ h₁ _
    simp [Json.value?] at h₁
  | succ depth₁ ih =>
    intro t tree v rest₁ rest₂ h₁ h₂
    cases depth₂ with
    | zero => simp [Literal.value?] at h₂
    | succ depth₂ =>
      cases t with
      | nil => simp [Json.value?] at h₁
      | cons c u =>
        rw [Json.value?] at h₁
        rw [Literal.value?] at h₂
        dsimp only at h₁ h₂
        by_cases hlist : c = '['
        · rw [if_pos hlist] at h₁ h₂
          obtain ⟨trees, hitems₁, rfl⟩ := exists_of_map Json.Tree.array h₁
          obtain ⟨vs, hitems₂, rfl⟩ := exists_of_map Value.array h₂
          obtain ⟨hrest, hall⟩ := Container.items?_agree style_extends (ih depth₂)
            (refuses_value? depth₁) hitems₁ hitems₂
          exact ⟨hrest, .array hall⟩
        rw [if_neg hlist] at h₁ h₂
        by_cases hdict : c = '\x7b'
        · rw [if_pos hdict] at h₁ h₂
          rw [if_neg (by rw [hdict]; decide)] at h₂
          obtain ⟨entries, hitems₁, rfl⟩ := exists_of_map Json.Tree.object h₁
          obtain ⟨es, hitems₂, rfl⟩ := exists_of_map Literal.object h₂
          obtain ⟨hrest, hall⟩ :=
            Container.items?_agree style_extends (pair?_agree (ih depth₂)) (refuses_pair? _)
              hitems₁ hitems₂
          exact ⟨hrest, .object hall⟩
        rw [if_neg hdict] at h₁
        by_cases hquote : c = '"'
        · have hparen : c ≠ '(' := by rw [hquote]; decide
          rw [if_pos hquote] at h₁
          rw [if_neg hparen, if_neg hdict, if_pos (.inr hquote), hquote] at h₂
          obtain ⟨pieces, hread₁, rfl⟩ := exists_of_map Json.Tree.string h₁
          obtain ⟨s, hread₂, rfl⟩ := exists_of_map Value.string h₂
          obtain ⟨hrest, hmakes⟩ := string_agree 0 hread₁ hread₂
          exact ⟨hrest, .string hmakes⟩
        · rw [if_neg hquote] at h₁
          obtain ⟨r₁, hskip, heq₁⟩ := Option.map_eq_some_iff.1 h₁
          obtain ⟨rfl, rfl⟩ := Prod.mk.inj heq₁
          obtain ⟨hparen, hsingle⟩ := ne_of_skipAtom? hskip
          rw [if_neg hparen, if_neg hdict, if_neg (not_or.2 ⟨hsingle, hquote⟩)] at h₂
          exact ⟨atom?_agree hskip h₂, .atom⟩

end Attempt

end MinedRules
