import MinedRules.Text.Container
import Mathlib.Data.List.Forall2

/-!
# Readers that agree

A reader takes something from the start of a text and gives it with the rest of the text.  Two readers
agree (`Text.Agree`) if, on every text that both read, they stop at the same place and give related
things.

* `Container.items?_agree` : the readers of a container agree if those of its items do, also if only
  the second one allows a comma that separates nothing.  Where such a comma stands the first one has
  to read an item, and no item begins with a comma or a closing bracket (`Text.Refuses`).
-/

namespace MinedRules

variable {α β : Type}

theorem exists_of_map (f : α → β) {o : Option (α × Text)} {y : β} {rest : Text}
    (h : (o.map fun p => (f p.1, p.2)) = some (y, rest)) : ∃ x, o = some (x, rest) ∧ y = f x := by
  obtain ⟨⟨x, rest'⟩, ho, heq⟩ := Option.map_eq_some_iff.1 h
  obtain ⟨rfl, rfl⟩ := Prod.mk.inj heq
  exact ⟨x, ho, rfl⟩

namespace Text

/-- On a text that both readers read they stop at the same place, and what they give is related. -/
def Agree (Q : α → β → Prop) (read₁ : Text → Option (α × Text))
    (read₂ : Text → Option (β × Text)) : Prop :=
  ∀ {t : Text} {x : α} {y : β} {rest₁ rest₂ : Text}, read₁ t = some (x, rest₁) →
    read₂ t = some (y, rest₂) → rest₁ = rest₂ ∧ Q x y

/-- Nothing that the reader reads begins with a comma or the closing bracket. -/
def Refuses (close : Char) (item? : Text → Option (α × Text)) : Prop :=
  ∀ c t, c = ',' ∨ c = close → item? (c :: t) = none

end Text

namespace Container

open Text (Agree Refuses)

variable {style₁ style₂ : Style} {Q : α → β → Prop} {item₁ : Text → Option (α × Text)}
  {item₂ : Text → Option (β × Text)} {close : Char}

/-- The second style allows what the first one does, and perhaps further commas. -/
structure Style.Extends (style₁ style₂ : Style) : Prop where
  skip : style₁.skip = style₂.skip
  trailing : style₁.trailing = false
  lone : style₁.lone = false

/-- An item and then what `more₁` and `more₂` read: the items agree, and the rest is left to these. -/
theorem agree_item (hitem : Agree Q item₁ item₂) (more₁ : Text → Option (List α × Text))
    (more₂ : Text → Option (List β × Text)) {t : Text} {xs : List α} {ys : List β}
    {rest₁ rest₂ : Text}
    (h₁ : (match item₁ t with
      | none => none
      | some (x, rest) => (more₁ rest).map fun (xs, rest) => (x :: xs, rest)) = some (xs, rest₁))
    (h₂ : (match item₂ t with
      | none => none
      | some (y, rest) => (more₂ rest).map fun (ys, rest) => (y :: ys, rest)) = some (ys, rest₂)) :
    ∃ x xs' y ys' rest, xs = x :: xs' ∧ ys = y :: ys' ∧ Q x y ∧
      more₁ rest = some (xs', rest₁) ∧ more₂ rest = some (ys', rest₂) := by
  cases hx : item₁ t with
  | none => simp [hx] at h₁
  | some p =>
    obtain ⟨x, rest⟩ := p
    cases hy : item₂ t with
    | none => simp [hy] at h₂
    | some q =>
      obtain ⟨y, rest'⟩ := q
      obtain ⟨rfl, hxy⟩ := hitem hx hy
      rw [hx] at h₁
      rw [hy] at h₂
      obtain ⟨xs', hmore₁, rfl⟩ := exists_of_map (x :: ·) h₁
      obtain ⟨ys', hmore₂, rfl⟩ := exists_of_map (y :: ·) h₂
      exact ⟨x, xs', y, ys', rest, rfl, rfl, hxy, hmore₁, hmore₂⟩

theorem more?_agree (hstyle : style₁.Extends style₂) (hitem : Agree Q item₁ item₂)
    (hrefuses : Refuses close item₁) {fuel₁ fuel₂ : Nat} :
    Agree (List.Forall₂ Q) (more? style₁ item₁ close fuel₁) (more? style₂ item₂ close fuel₂) := by
  intro t xs ys rest₁ rest₂ h₁ h₂
  -- each step takes one comma and one item
  induction fuel₁ generalizing fuel₂ t xs ys with
  | zero => simp [more?] at h₁
  | succ fuel₁ ih =>
    cases fuel₂ with
    | zero => simp [more?] at h₂
    | succ fuel₂ =>
      cases t with
      | nil => simp [more?] at h₁
      | cons c t =>
        rw [more?] at h₁ h₂
        by_cases hclose : c = close
        · rw [if_pos hclose] at h₁ h₂
          obtain ⟨rfl, rfl⟩ := Prod.mk.inj (Option.some.inj h₁)
          obtain ⟨rfl, rfl⟩ := Prod.mk.inj (Option.some.inj h₂)
          exact ⟨rfl, .nil⟩
        rw [if_neg hclose] at h₁ h₂
        by_cases hcomma : c = ','
        · rw [if_pos hcomma, hstyle.skip] at h₁
          rw [if_pos hcomma] at h₂
          cases hskip : style₂.skip t with
          | nil => simp [hskip] at h₁
          | cons d u =>
            simp only [hskip] at h₁ h₂
            rw [if_neg fun h => Bool.false_ne_true (hstyle.trailing.symm.trans h.1)] at h₁
            -- a trailing comma of the second style: the first reader would need an item
            by_cases hd : d = close
            · simp [hrefuses d u (.inr hd)] at h₁
            rw [if_neg fun h => hd h.2] at h₂
            obtain ⟨x, xs', y, ys', rest, rfl, rfl, hxy, hmore₁, hmore₂⟩ := agree_item hitem
              (fun rest => more? style₁ item₁ close fuel₁ (style₂.skip rest))
              (fun rest => more? style₂ item₂ close fuel₂ (style₂.skip rest)) h₁ h₂
            obtain ⟨hrest, hall⟩ := ih hmore₁ hmore₂
            exact ⟨hrest, .cons hxy hall⟩
        · rw [if_neg hcomma] at h₁
          simp at h₁

/-- **The readers of a container agree if those of its items do.** -/
theorem items?_agree (hstyle : style₁.Extends style₂) (hitem : Agree Q item₁ item₂)
    (hrefuses : Refuses close item₁) :
    Agree (List.Forall₂ Q) (items? style₁ item₁ close) (items? style₂ item₂ close) := by
  intro t xs ys rest₁ rest₂ h₁ h₂
  rw [items?, hstyle.skip] at h₁
  rw [items?] at h₂
  cases hskip : style₂.skip t with
  | nil => simp [hskip] at h₁
  | cons c u =>
    simp only [hskip] at h₁ h₂
    by_cases hclose : c = close
    · rw [if_pos hclose] at h₁ h₂
      obtain ⟨rfl, rfl⟩ := Prod.mk.inj (Option.some.inj h₁)
      obtain ⟨rfl, rfl⟩ := Prod.mk.inj (Option.some.inj h₂)
      exact ⟨rfl, .nil⟩
    rw [if_neg hclose] at h₁ h₂
    rw [if_neg fun h => Bool.false_ne_true (hstyle.lone.symm.trans h.1)] at h₁
    by_cases hcomma : c = ','
    · simp [hrefuses c u (.inl hcomma)] at h₁
    rw [if_neg fun h => hcomma h.2] at h₂
    obtain ⟨x, xs', y, ys', rest, rfl, rfl, hxy, hmore₁, hmore₂⟩ := agree_item hitem
      (fun rest => more? style₁ item₁ close (rest.length + 1) (style₂.skip rest))
      (fun rest => more? style₂ item₂ close (rest.length + 1) (style₂.skip rest)) h₁ h₂
    obtain ⟨hrest, hall⟩ := more?_agree hstyle hitem hrefuses hmore₁ hmore₂
    exact ⟨hrest, .cons hxy hall⟩

end Container

end MinedRules
