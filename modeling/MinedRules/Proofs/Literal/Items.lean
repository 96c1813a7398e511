import MinedRules.Proofs.Literal.Grammar
import MinedRules.Proofs.Text.Readers
import MinedRules.Proofs.Text.Trimming

/-!
# Reading items between brackets

If the reader of items reads what a relation `R` says (`Sound`) and reads all of it (`Complete`), the
reader of a container reads what `Contents R` says, and all of it.

An item comes with the blanks around it.  Readers start behind the blanks before an item and may
stop before the blanks after it, so both notions look at texts without the blanks at their start.

* `items?_sound`, `items?_complete` : the two directions for containers.
* `Sound.pair`, `Complete.pair` : the two directions for the entries of a dictionary.
-/

namespace MinedRules

namespace Literal

/-! ### Blanks -/

theorem blanks_iff {t : Text} : Blanks t ↔ ∀ c ∈ t, isPlainBlank c = true := by
  simp [Blanks, isPlainBlank, or_assoc]

theorem Blanks.cases {t : Text} (h : Blanks t) {c : Char} (hc : c ∈ t) :
    c = ' ' ∨ c = '\t' ∨ c = '\r' ∨ c = '\n' := by
  simpa using h c hc

theorem skipBlanks_append {a : Text} (ha : Blanks a) (t : Text) :
    Text.skipBlanks (a ++ t) = Text.skipBlanks t :=
  List.dropWhile_append_of_pos (blanks_iff.1 ha)

theorem skipBlanks_eq_self {t : Text} (h : ∀ c ∈ t.head?, isPlainBlank c = false) :
    Text.skipBlanks t = t :=
  Text.dropWhile_eq_self h

theorem exists_blanks (t : Text) : ∃ a, Blanks a ∧ t = a ++ Text.skipBlanks t :=
  ⟨t.takeWhile isPlainBlank, blanks_iff.2 fun _ hc => List.mem_takeWhile_imp hc,
    List.takeWhile_append_dropWhile.symm⟩

theorem padded_iff {α : Type} {R : Text → α → Prop} {t : Text} {x : α} :
    Padded R t x ↔ ∃ a u b, t = a ++ u ++ b ∧ Blanks a ∧ R u x ∧ Blanks b :=
  ⟨fun ⟨ha, hu, hb⟩ => ⟨_, _, _, rfl, ha, hu, hb⟩,
    fun ⟨_, _, _, heq, ha, hu, hb⟩ => heq ▸ .intro ha hu hb⟩

@[simp] theorem style_skip (t : Text) : style.skip t = Text.skipBlanks t := rfl

variable {α : Type} {R : Text → α → Prop} {item? : Text → Option (α × Text)}

/-! ### What follows an item -/

/-- What follows an item up to the end of a container: further items, each behind a comma, and at
most one comma more. -/
inductive Following (R : Text → α → Prop) : Text → List α → Prop
  | last {e : Text} : Trailer e → Following R e []
  | further {t u : Text} {x : α} {xs : List α} : R t x → Following R u xs →
      Following R (',' :: (t ++ u)) (x :: xs)

theorem Following.row {t u : Text} {x : α} {xs : List α} (hx : R t x) (h : Following R u xs) :
    ∃ w e, t ++ u = w ++ e ∧ Row R w (x :: xs) ∧ Trailer e := by
  induction h generalizing t x with
  | last he => exact ⟨_, _, rfl, .single hx, he⟩
  | further hy _ ih =>
    obtain ⟨w, e, heq, hrow, he⟩ := ih hy
    refine ⟨_, e, ?_, .cons hx hrow, he⟩
    rw [heq, List.append_assoc, List.cons_append]

theorem Following.contents {t u : Text} {x : α} {xs : List α} (hx : R t x)
    (h : Following R u xs) : Contents R (t ++ u) (x :: xs) := by
  obtain ⟨w, e, heq, hrow, he⟩ := h.row hx
  rw [heq]
  exact .items hrow he

theorem Row.following {t e : Text} {xs : List α} (h : Row R t xs) (he : Trailer e) :
    ∃ x ys w u, xs = x :: ys ∧ t ++ e = w ++ u ∧ R w x ∧ Following R u ys := by
  induction h with
  | single hx => exact ⟨_, _, _, _, rfl, rfl, hx, .last he⟩
  | cons hx _ ih =>
    obtain ⟨y, ys, w, u, rfl, heq, hy, hu⟩ := ih
    refine ⟨_, _, _, _, rfl, ?_, hx, .further hy hu⟩
    rw [List.append_assoc, List.cons_append, heq]

theorem Following.length_le {u : Text} {xs : List α} (h : Following R u xs) :
    xs.length ≤ u.length := by
  induction h with
  | last => simp
  | further _ _ ih =>
    simp only [List.length_cons, List.length_append]
    omega

/-! ### Soundness -/

/-- What the reader takes from a text, with the blanks around it, is related to what it gives. -/
def Sound (R : Text → α → Prop) (item? : Text → Option (α × Text)) : Prop :=
  ∀ t x rest, item? (Text.skipBlanks t) = some (x, rest) →
    ∃ u, R u x ∧ t = u ++ Text.skipBlanks rest

theorem more?_sound (hitem : Sound R item?) {close : Char} {fuel : Nat} {t rest : Text}
    {xs : List α} (h : Container.more? style item? close fuel t = some (xs, rest)) :
    ∃ u, Following R u xs ∧ t = u ++ close :: rest := by
  induction fuel generalizing t xs with
  | zero => simp [Container.more?] at h
  | succ fuel ih =>
    cases t with
    | nil => simp [Container.more?] at h
    | cons c t =>
      rw [Container.more?] at h
      split at h
      · next hc =>
        obtain ⟨rfl, rfl⟩ := Prod.mk.inj (Option.some.inj h)
        exact ⟨[], .last .absent, by rw [hc, List.nil_append]⟩
      split at h
      · next hc =>
        obtain ⟨b, hb, ht⟩ := exists_blanks t
        rw [style_skip] at h
        split at h
        · simp at h
        · next d u hd =>
          split at h
          · next hclose =>
            -- a comma before the closing bracket
            obtain ⟨rfl, rfl⟩ := Prod.mk.inj (Option.some.inj h)
            refine ⟨',' :: b, .last (.comma hb), ?_⟩
            rw [hc, List.cons_append, ← hclose.2, ← hd, ← ht]
          · split at h
            · simp at h
            · next x rest' hx =>
              rw [← hd] at hx
              obtain ⟨w, hw, htw⟩ := hitem _ _ _ hx
              obtain ⟨ys, hmore, rfl⟩ := exists_of_map (x :: ·) h
              obtain ⟨v, hv, hrest⟩ := ih hmore
              rw [style_skip] at hrest
              exact ⟨_, .further hw hv, by simp [hc, htw, hrest]⟩
      · simp at h

/-- **What the reader of a container takes is a container.** -/
theorem items?_sound (hitem : Sound R item?) {close : Char} {t rest : Text} {xs : List α}
    (h : Container.items? style item? close t = some (xs, rest)) :
    ∃ u, Contents R u xs ∧ t = u ++ close :: rest := by
  obtain ⟨a, ha, ht⟩ := exists_blanks t
  rw [Container.items?, style_skip] at h
  split at h
  · simp at h
  · next c u hc =>
    split at h
    · next hclose =>
      obtain ⟨rfl, rfl⟩ := Prod.mk.inj (Option.some.inj h)
      exact ⟨a ++ [], .empty ha .absent, by rw [List.append_nil, ← hclose, ← hc, ← ht]⟩
    split at h
    · next hlone =>
      obtain ⟨b, hb, hu⟩ := exists_blanks u
      rw [style_skip] at h
      split at h
      · simp at h
      · next d u' hd =>
        split at h
        · next hclose =>
          obtain ⟨rfl, rfl⟩ := Prod.mk.inj (Option.some.inj h)
          refine ⟨a ++ ',' :: b, .empty ha (.comma hb), ?_⟩
          rw [List.append_assoc, List.cons_append, ← hclose, ← hd, ← hu, ← hlone.2, ← hc, ← ht]
        · simp at h
    · split at h
      · simp at h
      · next x rest' hx =>
        rw [← hc] at hx
        obtain ⟨w, hw, htw⟩ := hitem _ _ _ hx
        obtain ⟨ys, hmore, rfl⟩ := exists_of_map (x :: ·) h
        obtain ⟨v, hv, hrest⟩ := more?_sound hitem hmore
        rw [style_skip] at hrest
        exact ⟨w ++ v, hv.contents hw, by rw [htw, hrest, List.append_assoc]⟩

/-! ### Completeness -/

/-- A character that may follow an item: a comma, a colon or a closing bracket. -/
def isStop (c : Char) : Bool := [',', ':', ']', ')', '\x7d'].contains c

theorem isStop_cases {c : Char} (h : isStop c = true) :
    c = ',' ∨ c = ':' ∨ c = ']' ∨ c = ')' ∨ c = '\x7d' := by
  simpa [isStop] using h

theorem isPlainBlank_of_isStop {c : Char} (h : isStop c = true) : isPlainBlank c = false := by
  rcases isStop_cases h with rfl | rfl | rfl | rfl | rfl <;> decide

theorem skipBlanks_stop {a t : Text} {c : Char} (ha : Blanks a) (hc : isStop c = true) :
    Text.skipBlanks (a ++ c :: t) = c :: t := by
  rw [skipBlanks_append ha, skipBlanks_eq_self]
  rintro d ⟨⟩
  exact isPlainBlank_of_isStop hc

/-- The reader takes all of an item of at most `size` characters when a stop follows, and an item
does not begin with a stop. -/
structure Complete (size : Nat) (R : Text → α → Prop) (item? : Text → Option (α × Text)) : Prop where
  read : ∀ {u : Text} {x : α}, R u x → u.length ≤ size → ∀ {c : Char}, isStop c = true → ∀ t,
    ∃ rest, item? (Text.skipBlanks (u ++ c :: t)) = some (x, rest) ∧ Text.skipBlanks rest = c :: t
  start : ∀ {u : Text} {x : α}, R u x → ∀ t,
    ∃ d v, Text.skipBlanks (u ++ t) = d :: v ∧ isStop d = false

variable {size : Nat}

theorem Following.head_stop {u : Text} {xs : List α} (h : Following R u xs) {close : Char}
    (hclose : isStop close = true) (t : Text) :
    ∃ c v, u ++ close :: t = c :: v ∧ isStop c = true := by
  cases h with
  | last he =>
    cases he with
    | absent => exact ⟨_, _, rfl, hclose⟩
    | comma => exact ⟨_, _, rfl, by decide⟩
  | further => exact ⟨_, _, rfl, by decide⟩

theorem more?_complete (hitem : Complete size R item?) {close : Char} (hclose : isStop close = true)
    (hcomma : close ≠ ',') {u t : Text} {xs : List α} (h : Following R u xs)
    (hsize : u.length ≤ size) {fuel : Nat} (hfuel : xs.length < fuel) :
    Container.more? style item? close fuel (u ++ close :: t) = some (xs, t) := by
  induction h generalizing fuel with
  | last he =>
    obtain ⟨fuel, rfl⟩ : ∃ n, fuel = n + 1 := ⟨fuel - 1, by simp at hfuel; omega⟩
    cases he with
    | absent => rw [List.nil_append, Container.more?, if_pos rfl]
    | comma hb =>
      rw [List.cons_append, Container.more?, if_neg (Ne.symm hcomma), if_pos rfl, style_skip,
        skipBlanks_stop hb hclose]
      simp [style]
  | @further w u x xs hx hu ih =>
    obtain ⟨fuel, rfl⟩ : ∃ n, fuel = n + 1 := ⟨fuel - 1, by simp at hfuel; omega⟩
    simp only [List.length_cons, List.length_append] at hsize hfuel
    obtain ⟨c, v, hcv, hc⟩ := hu.head_stop hclose t
    obtain ⟨rest, hread, hrest⟩ := hitem.read hx (by omega) hc v
    obtain ⟨d, z, hdz, hd⟩ := hitem.start hx (c :: v)
    rw [hdz] at hread
    -- the comma before the item is not taken for one that separates nothing
    have hdclose : ¬ (style.trailing = true ∧ d = close) := fun hl =>
      Text.ne_of_class hclose hd hl.2.symm
    rw [List.cons_append, List.append_assoc, hcv, Container.more?, if_neg (Ne.symm hcomma),
      if_pos rfl, style_skip, hdz]
    simp only [if_neg hdclose, hread, style_skip, hrest, ← hcv]
    rw [ih (by omega) (by omega)]
    rfl

/-- **The reader of a container takes all of it.** -/
theorem items?_complete (hitem : Complete size R item?) {close : Char}
    (hclose : isStop close = true) (hcomma : close ≠ ',') {u t : Text} {xs : List α}
    (h : Contents R u xs) (hsize : u.length ≤ size) :
    Container.items? style item? close (u ++ close :: t) = some (xs, t) := by
  cases h with
  | empty ha he =>
    rw [List.append_assoc, Container.items?, style_skip, skipBlanks_append ha]
    cases he with
    | absent =>
      rw [List.nil_append, ← List.nil_append (close :: t), skipBlanks_stop (by simp [Blanks]) hclose]
      simp
    | comma hb =>
      rw [List.cons_append, ← List.nil_append (',' :: _), skipBlanks_stop (by simp [Blanks]) (by decide)]
      simp [Ne.symm hcomma, skipBlanks_stop hb hclose, style]
  | items hrow he =>
    obtain ⟨x, ys, w, v, rfl, heq, hx, hv⟩ := hrow.following he
    rw [heq, List.length_append] at hsize
    obtain ⟨c, z, hcz, hc⟩ := hv.head_stop hclose t
    obtain ⟨rest, hread, hrest⟩ := hitem.read hx (by omega) hc z
    obtain ⟨d, y, hdy, hd⟩ := hitem.start hx (c :: z)
    rw [hdy] at hread
    have hne : ∀ {b : Char}, isStop b = true → d ≠ b := fun hb => (Text.ne_of_class hb hd).symm
    have hlone : ¬ (style.lone = true ∧ d = ',') := fun hl => hne (by decide) hl.2
    -- every further item takes at least its comma
    have hfuel : ys.length < rest.length + 1 := by
      have hskip : (Text.skipBlanks rest).length ≤ rest.length := List.length_dropWhile_le _ _
      have hlength := hv.length_le
      rw [hrest, ← hcz, List.length_append] at hskip
      omega
    rw [heq, List.append_assoc, hcz, Container.items?, style_skip, hdy]
    simp only [if_neg (hne hclose), if_neg hlone, hread, style_skip, hrest, ← hcz]
    rw [more?_complete hitem hclose hcomma hv (by omega) hfuel]
    rfl

/-! ### Entries of a dictionary -/

section Pair

variable {R : Text → Value → Prop} {value? : Text → Option (Value × Text)}

theorem Sound.pair (h : Sound R value?) : Sound (Entry R) (pair? value?) := by
  intro t x rest hpair
  rw [pair?] at hpair
  split at hpair
  · simp at hpair
  · next key rest' hkey =>
    obtain ⟨w, hw, rfl⟩ := h _ _ _ hkey
    split at hpair
    · next u hu =>
      obtain ⟨v, hvalue, rfl⟩ := exists_of_map (key, ·) hpair
      obtain ⟨z, hz, rfl⟩ := h _ _ _ hvalue
      exact ⟨_, .intro hw hz, by rw [hu, List.append_assoc, List.cons_append]⟩
    · simp at hpair

theorem Complete.pair (h : Complete size R value?) : Complete size (Entry R) (pair? value?) where
  read := by
    rintro u x ⟨hkey, hvalue⟩ hsize c hc t
    rw [List.length_append, List.length_cons] at hsize
    obtain ⟨rest', hread', hrest'⟩ := h.read hkey (by omega) (c := ':') (by decide) (_ ++ c :: t)
    obtain ⟨rest, hread, hrest⟩ := h.read hvalue (by omega) hc t
    refine ⟨rest, ?_, hrest⟩
    rw [List.append_assoc, List.cons_append, pair?, hread']
    simp only [hrest', hread, Option.map_some]
  start := by
    rintro u x ⟨hkey, hvalue⟩ t
    rw [List.append_assoc]
    exact h.start hkey _

end Pair

end Literal

end MinedRules
