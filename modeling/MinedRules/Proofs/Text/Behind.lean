import MinedRules.Proofs.Text.Readers
import MinedRules.Proofs.Text.Trimming

/-!
# Blanks behind what is read

A reader that takes something from the start of a text need not care about blanks at the end of this
text: it takes the same with them and without them, or nothing both times (`Text.Overlooks`).  The
readers of values bound how deep they go and how many items they take, and longer texts get larger
bounds, so two readers are compared, one for the text alone and one for the text with the blanks.

* `Container.items?_leavesEnd` : the reader of a container leaves an end of the text if that of its
  items does.
* `Container.items?_behind` : it overlooks blanks if that of its items does.

The readers start behind the blanks before an item.  If there is nothing else in a text, nothing of
the blanks behind it is left either (`Text.skipBlanks_behind`).
-/

namespace MinedRules

variable {α β : Type} {back t rest : Text} {size : Nat}

namespace Text

/-- What the reader leaves is an end of the text. -/
def LeavesEnd (read : Text → Option (α × Text)) : Prop :=
  ∀ {t : Text} {x : α} {rest : Text}, read t = some (x, rest) → rest <:+ t

theorem skipBlanks_suffix (t : Text) : skipBlanks t <:+ t := List.dropWhile_suffix _

/-- What a reader gives, with `back` behind the rest of the text. -/
def followedBy (back : Text) (p : α × Text) : α × Text := (p.1, p.2 ++ back)

theorem map_followedBy (back : Text) (f : α → β) (o : Option (α × Text)) :
    (o.map (followedBy back)).map (fun p => (f p.1, p.2)) =
      (o.map fun p => (f p.1, p.2)).map (followedBy back) := by
  cases o <;> rfl

/-- From a text of at most `size` characters with `back` behind it the second reader takes what the
first one takes without.  Both start behind the blanks. -/
def Overlooks (back : Text) (size : Nat) (read₁ read₂ : Text → Option (α × Text)) : Prop :=
  ∀ t : Text, t.length ≤ size →
    read₂ (skipBlanks (t ++ back)) = (read₁ (skipBlanks t)).map (followedBy back)

theorem Overlooks.mono {size' : Nat} {read₁ read₂ : Text → Option (α × Text)}
    (h : Overlooks back size read₁ read₂) (hsize : size' ≤ size) :
    Overlooks back size' read₁ read₂ :=
  fun t ht => h t (Nat.le_trans ht hsize)

/-- Behind the blanks of a text either nothing stands, with blanks behind it or not, or it goes on in
the same way. -/
theorem skipBlanks_behind (hback : ∀ c ∈ back, isPlainBlank c = true) (t : Text) :
    (skipBlanks t = [] ∧ skipBlanks (t ++ back) = []) ∨
      ∃ c u, skipBlanks t = c :: u ∧ skipBlanks (t ++ back) = c :: (u ++ back) ∧
        u.length < t.length := by
  have happend : skipBlanks (t ++ back) =
      if (skipBlanks t).isEmpty then skipBlanks back else skipBlanks t ++ back :=
    List.dropWhile_append
  cases hskip : skipBlanks t with
  | nil =>
    have hnil : skipBlanks back = [] := List.dropWhile_eq_nil_iff.2 hback
    rw [hskip, List.isEmpty_nil, if_pos rfl, hnil] at happend
    exact .inl ⟨rfl, happend⟩
  | cons c u =>
    rw [hskip, if_neg (by simp)] at happend
    have hlength := (skipBlanks_suffix t).length_le
    rw [hskip, List.length_cons] at hlength
    exact .inr ⟨c, u, rfl, happend, hlength⟩

end Text

namespace Container

open Text (LeavesEnd Overlooks followedBy skipBlanks skipBlanks_suffix skipBlanks_behind)

variable {style : Style} {item? item₁ item₂ : Text → Option (α × Text)} {close : Char}

/-! ### The end that is left -/

theorem item_leavesEnd (hitem : LeavesEnd item?) (more : Text → Option (List α × Text))
    (hmore : ∀ {rest xs rest'}, more rest = some (xs, rest') → rest' <:+ rest) {xs : List α}
    (h : (match item? t with
      | none => none
      | some (x, rest) => (more rest).map fun (xs, rest) => (x :: xs, rest)) = some (xs, rest)) :
    rest <:+ t := by
  cases hx : item? t with
  | none => simp [hx] at h
  | some p =>
    obtain ⟨x, rest'⟩ := p
    rw [hx] at h
    obtain ⟨xs', hread, -⟩ := exists_of_map (x :: ·) h
    exact (hmore hread).trans (hitem hx)

variable (hskip : style.skip = skipBlanks)

include hskip in
theorem more?_leavesEnd (hitem : LeavesEnd item?) (fuel : Nat) :
    LeavesEnd (more? style item? close fuel) := by
  intro t xs rest h
  induction fuel generalizing t xs rest with
  | zero => simp [more?] at h
  | succ fuel ih =>
    cases t with
    | nil => simp [more?] at h
    | cons c u =>
      rw [more?] at h
      split at h
      · obtain ⟨-, rfl⟩ := Prod.mk.inj (Option.some.inj h)
        exact List.suffix_cons c u
      split at h
      · rw [hskip] at h
        split at h
        · simp at h
        · next d v hd =>
          have hv : d :: v <:+ u := hd ▸ skipBlanks_suffix u
          have hrest : rest <:+ d :: v := by
            split at h
            · obtain ⟨-, rfl⟩ := Prod.mk.inj (Option.some.inj h)
              exact List.suffix_cons d v
            · exact item_leavesEnd hitem (fun r => more? style item? close fuel (skipBlanks r))
                (fun hread => (ih hread).trans (skipBlanks_suffix _)) h
          exact (hrest.trans hv).trans (List.suffix_cons c u)
      · simp at h

include hskip in
/-- **The reader of a container leaves an end of the text** if that of its items does. -/
theorem items?_leavesEnd (hitem : LeavesEnd item?) : LeavesEnd (items? style item? close) := by
  intro t xs rest h
  rw [items?, hskip] at h
  split at h
  · simp at h
  · next c u hc =>
    have hu : c :: u <:+ t := hc ▸ skipBlanks_suffix t
    have hrest : rest <:+ c :: u := by
      split at h
      · obtain ⟨-, rfl⟩ := Prod.mk.inj (Option.some.inj h)
        exact List.suffix_cons c u
      split at h
      · split at h
        · simp at h
        · next d v hd =>
          have hv : d :: v <:+ u := hd ▸ skipBlanks_suffix u
          split at h
          · obtain ⟨-, rfl⟩ := Prod.mk.inj (Option.some.inj h)
            exact ((List.suffix_cons d _).trans hv).trans (List.suffix_cons c u)
          · simp at h
      · exact item_leavesEnd hitem
          (fun r => more? style item? close (r.length + 1) (skipBlanks r))
          (fun hread => (more?_leavesEnd hskip hitem _ hread).trans (skipBlanks_suffix _)) h
    exact hrest.trans hu

/-! ### Blanks behind a container -/

theorem item_behind (hitem : Overlooks back size item₁ item₂) (hend : LeavesEnd item₁)
    (more₁ more₂ : Text → Option (List α × Text)) (ht : t.length ≤ size)
    (hmore : ∀ rest, rest.length ≤ t.length →
      more₂ (rest ++ back) = (more₁ rest).map (followedBy back)) :
    (match item₂ (skipBlanks (t ++ back)) with
      | none => none
      | some (x, rest) => (more₂ rest).map fun (xs, rest) => (x :: xs, rest)) =
    Option.map (followedBy back) (match item₁ (skipBlanks t) with
      | none => none
      | some (x, rest) => (more₁ rest).map fun (xs, rest) => (x :: xs, rest)) := by
  rw [hitem t ht]
  cases hx : item₁ (skipBlanks t) with
  | none => rfl
  | some p =>
    obtain ⟨x, rest⟩ := p
    have hlength := ((hend hx).trans (skipBlanks_suffix t)).length_le
    simp only [Option.map_some, followedBy, hmore rest hlength]
    exact Text.map_followedBy back (x :: ·) (more₁ rest)

theorem more?_nil (fuel : Nat) : more? style item? close fuel [] = none := by
  cases fuel <;> rfl

variable (hback : ∀ c ∈ back, isPlainBlank c = true)

include hskip hback in
/-- What may follow an item, with bounds for the number of items that are large enough. -/
theorem more?_overlooks (hitem : Overlooks back size item₁ item₂) (hend : LeavesEnd item₁)
    {fuel₁ fuel₂ : Nat} (h₁ : size ≤ fuel₁) (h₂ : size ≤ fuel₂) :
    Overlooks back size (more? style item₁ close fuel₁) (more? style item₂ close fuel₂) := by
  intro t ht
  -- each step takes at least the comma
  induction fuel₁ generalizing t size fuel₂ with
  | zero =>
    obtain rfl := List.length_eq_zero_iff.1 (Nat.le_zero.1 (Nat.le_trans ht h₁))
    obtain ⟨-, hnil⟩ | ⟨c, u, -, -, hlt⟩ := skipBlanks_behind hback []
    · rw [hnil, more?_nil]
      rfl
    · exact absurd hlt (Nat.not_lt_zero _)
  | succ fuel₁ ih =>
    obtain ⟨hnil, hnil'⟩ | ⟨c, u, hcons, hcons', hlt⟩ := skipBlanks_behind hback t
    · rw [hnil, hnil', more?_nil, more?_nil]
      rfl
    obtain ⟨fuel₂, rfl⟩ := Nat.exists_eq_add_one_of_ne_zero (n := fuel₂) (by omega)
    rw [hcons, hcons', more?, more?]
    by_cases hclose : c = close
    · rw [if_pos hclose, if_pos hclose]
      rfl
    rw [if_neg hclose, if_neg hclose]
    by_cases hcomma : c = ','
    · rw [if_pos hcomma, if_pos hcomma, hskip]
      obtain ⟨hnil, hnil'⟩ | ⟨d, v, hd, hd', -⟩ := skipBlanks_behind hback u
      · rw [hnil, hnil']
        rfl
      · have hu : Overlooks back u.length item₁ item₂ := hitem.mono (by omega)
        have hstep := item_behind hu hend
          (fun rest => more? style item₁ close fuel₁ (skipBlanks rest))
          (fun rest => more? style item₂ close fuel₂ (skipBlanks rest)) (Nat.le_refl _)
          (ih hu (by omega) (by omega))
        rw [hd, hd'] at hstep ⊢
        by_cases htrailing : style.trailing = true ∧ d = close
        · simp only [if_pos htrailing]
          rfl
        · simp only [if_neg htrailing]
          exact hstep
    · rw [if_neg hcomma, if_neg hcomma]
      rfl

include hskip hback in
/-- **The reader of a container overlooks blanks** if that of its items does. -/
theorem items?_behind (hitem : Overlooks back size item₁ item₂) (hend : LeavesEnd item₁)
    (ht : t.length ≤ size) : items? style item₂ close (t ++ back) =
      (items? style item₁ close t).map (followedBy back) := by
  rw [items?, items?, hskip]
  obtain ⟨hnil, hnil'⟩ | ⟨c, u, hcons, hcons', -⟩ := skipBlanks_behind hback t
  · rw [hnil, hnil']
    rfl
  have hstep := item_behind hitem hend
    (fun rest => more? style item₁ close (rest.length + 1) (skipBlanks rest))
    (fun rest => more? style item₂ close (rest.length + 1) (skipBlanks rest)) ht
    fun rest hrest => by
      have hmore := hitem.mono (Nat.le_trans hrest ht)
      refine more?_overlooks hskip hback hmore hend (Nat.le_succ _) ?_ rest (Nat.le_refl _)
      rw [List.length_append]
      omega
  rw [hcons, hcons'] at hstep ⊢
  dsimp only
  by_cases hclose : c = close
  · rw [if_pos hclose, if_pos hclose]
    rfl
  rw [if_neg hclose, if_neg hclose]
  by_cases hlone : style.lone = true ∧ c = ','
  · rw [if_pos hlone, if_pos hlone]
    obtain ⟨hnil, hnil'⟩ | ⟨d, v, hd, hd', -⟩ := skipBlanks_behind hback u
    · rw [hnil, hnil']
      rfl
    · rw [hd, hd']
      dsimp only
      split <;> rfl
  · rw [if_neg hlone, if_neg hlone]
    exact hstep

end Container

end MinedRules
