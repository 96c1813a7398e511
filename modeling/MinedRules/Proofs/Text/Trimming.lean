import MinedRules.Text.Blank
import Mathlib.Data.List.TakeWhile

/-!
# Runs of characters and what trimming keeps

A run of one class ends where the first character outside of it stands
(`takeWhile_append_of_stop`, `dropWhile_append_of_stop`).  Trimming removes such runs from the ends
of a text.  It keeps every character outside of the class (`filter_trimBy`, `count_trim`), and it
changes nothing if there is such a character at both ends (`trimBy_eq_self`).
-/

namespace MinedRules

namespace Text

variable {α : Type} {p q : α → Bool}

theorem ne_of_class {c d : α} (hc : p c = true) (hd : p d = false) : c ≠ d := by
  rintro rfl
  rw [hc] at hd
  exact absurd hd (by decide)

theorem forall_mem_of_eq_some {P : α → Prop} {o : Option α} {c : α} (h : o = some c) (hc : P c) :
    ∀ d ∈ o, P d := by
  intro d hd
  rw [h, Option.mem_some_iff] at hd
  exact hd ▸ hc

/-! ### Runs -/

theorem dropWhile_eq_self {t : List α} (h : ∀ c ∈ t.head?, p c = false) : t.dropWhile p = t := by
  cases t with
  | nil => rfl
  | cons c t => rw [List.dropWhile_cons_of_neg (by simp [h c rfl])]

theorem takeWhile_eq_nil {t : List α} (h : ∀ c ∈ t.head?, p c = false) : t.takeWhile p = [] := by
  cases t with
  | nil => rfl
  | cons c t => rw [List.takeWhile_cons_of_neg (by simp [h c rfl])]

theorem takeWhile_append_of_stop {a b : List α} (ha : ∀ c ∈ a, p c = true)
    (hb : ∀ c ∈ b.head?, p c = false) : (a ++ b).takeWhile p = a := by
  rw [List.takeWhile_append_of_pos ha, takeWhile_eq_nil hb, List.append_nil]

theorem dropWhile_append_of_stop {a b : List α} (ha : ∀ c ∈ a, p c = true)
    (hb : ∀ c ∈ b.head?, p c = false) : (a ++ b).dropWhile p = b := by
  rw [List.dropWhile_append_of_pos ha, dropWhile_eq_self hb]

/-- Where a run ends is determined by the text. -/
theorem append_inj_of_stop {a b a' b' : List α} (ha : ∀ c ∈ a, p c = true)
    (ha' : ∀ c ∈ a', p c = true) (hb : ∀ c ∈ b.head?, p c = false)
    (hb' : ∀ c ∈ b'.head?, p c = false) (h : a ++ b = a' ++ b') : a = a' ∧ b = b' := by
  obtain rfl : a = a' := by
    rw [← takeWhile_append_of_stop ha hb, h, takeWhile_append_of_stop ha' hb']
  exact ⟨rfl, List.append_cancel_left h⟩

theorem append_cons_inj {x : Char} {a b a' b' : Text} (ha : x ∉ a) (ha' : x ∉ a')
    (h : a ++ x :: b = a' ++ x :: b') : a = a' ∧ b = b' := by
  have hne : ∀ {u : Text}, x ∉ u → ∀ c ∈ u, (c != x) = true := fun hu c hc =>
    bne_iff_ne.2 fun heq => hu (heq ▸ hc)
  have hstart : ∀ {u : Text}, ∀ c ∈ (x :: u).head?, (c != x) = false := by
    rintro u c ⟨⟩
    exact bne_self_eq_false x
  obtain ⟨hsame, hrest⟩ := append_inj_of_stop (hne ha) (hne ha') hstart hstart h
  exact ⟨hsame, (List.cons.inj hrest).2⟩

theorem head?_dropWhile (p : α → Bool) (t : List α) : ∀ c ∈ (t.dropWhile p).head?, p c = false := by
  intro c hc
  have h := List.head?_dropWhile_not p t
  rw [Option.mem_def.1 hc] at h
  exact h

/-! ### Trimming -/

theorem filter_dropWhile (h : ∀ c, p c = true → q c = false) (t : List α) :
    (t.dropWhile p).filter q = t.filter q := by
  induction t with
  | nil => rfl
  | cons c t ih =>
    rw [List.dropWhile_cons]
    split
    · next hc => rw [ih, List.filter_cons_of_neg (by simp [h c hc])]
    · rfl

theorem filter_dropWhileEnd (h : ∀ c, p c = true → q c = false) (t : List α) :
    (dropWhileEnd p t).filter q = t.filter q := by
  rw [dropWhileEnd, List.filter_reverse, filter_dropWhile h, List.filter_reverse,
    List.reverse_reverse]

theorem filter_trimBy {p q : Char → Bool} (h : ∀ c, p c = true → q c = false) (t : Text) :
    (trimBy p t).filter q = t.filter q := by
  rw [trimBy, filter_dropWhileEnd h, filter_dropWhile h]

theorem dropWhileEnd_of_getLast? {t : List α} (h : ∀ c ∈ t.getLast?, p c = false) :
    dropWhileEnd p t = t := by
  rw [dropWhileEnd, dropWhile_eq_self, List.reverse_reverse]
  rwa [List.head?_reverse]

theorem exists_dropWhileEnd (p : α → Bool) (t : List α) :
    ∃ s, (∀ c ∈ s, p c = true) ∧ t = dropWhileEnd p t ++ s := by
  refine ⟨(t.reverse.takeWhile p).reverse, fun c hc => ?_, ?_⟩
  · exact List.mem_takeWhile_imp (List.mem_reverse.1 hc)
  · rw [dropWhileEnd, ← List.reverse_append, List.takeWhile_append_dropWhile, List.reverse_reverse]

theorem trimBy_eq_self {p : Char → Bool} {t : Text} (hhead : ∀ c ∈ t.head?, p c = false)
    (hlast : ∀ c ∈ t.getLast?, p c = false) : trimBy p t = t := by
  rw [trimBy, dropWhile_eq_self hhead, dropWhileEnd_of_getLast? hlast]

theorem dropWhile_append_singleton {t : List α} {c : α} (h : p c = false) :
    (t ++ [c]).dropWhile p = t.dropWhile p ++ [c] := by
  induction t with
  | nil => simp [h]
  | cons d t ih =>
    rw [List.cons_append, List.dropWhile_cons, List.dropWhile_cons]
    split
    · exact ih
    · rfl

/-! ### White space -/

theorem compact_append (a b : Text) : compact (a ++ b) = compact a ++ compact b :=
  List.filter_append ..

theorem compact_concat {c : Char} (hc : isBlank c = false) (t : Text) :
    compact (t ++ [c]) = compact t ++ [c] := by
  rw [compact_append]
  simp [compact, hc]

theorem filter_trimStart {q : Char → Bool} (h : ∀ c, isBlank c = true → q c = false) (t : Text) :
    (trimStart t).filter q = t.filter q :=
  filter_dropWhile h t

theorem filter_trimEnd {q : Char → Bool} (h : ∀ c, isBlank c = true → q c = false) (t : Text) :
    (trimEnd t).filter q = t.filter q :=
  filter_dropWhileEnd h t

theorem filter_trim {q : Char → Bool} (h : ∀ c, isBlank c = true → q c = false) (t : Text) :
    (trim t).filter q = t.filter q :=
  filter_trimBy h t

theorem beq_eq_false_of_isBlank {x : Char} (hx : isBlank x = false) (c : Char)
    (hc : isBlank c = true) : (c == x) = false :=
  beq_eq_false_iff_ne.2 (ne_of_class hc hx)

theorem count_trimStart {x : Char} (hx : isBlank x = false) (t : Text) :
    (trimStart t).count x = t.count x := by
  rw [List.count_eq_length_filter, List.count_eq_length_filter,
    filter_trimStart (beq_eq_false_of_isBlank hx)]

theorem count_trimEnd {x : Char} (hx : isBlank x = false) (t : Text) :
    (trimEnd t).count x = t.count x := by
  rw [List.count_eq_length_filter, List.count_eq_length_filter,
    filter_trimEnd (beq_eq_false_of_isBlank hx)]

theorem count_trim {x : Char} (hx : isBlank x = false) (t : Text) :
    (trim t).count x = t.count x := by
  rw [List.count_eq_length_filter, List.count_eq_length_filter,
    filter_trim (beq_eq_false_of_isBlank hx)]

end Text

end MinedRules
