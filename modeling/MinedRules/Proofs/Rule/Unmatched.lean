import MinedRules.Proofs.Rule.Matching

/-!
# Parentheses without a partner

Where the parentheses of a text cannot be matched, the scan reports one of them.  Its stack decides
which one, but the position can be told from the depths of the text alone: a closing parenthesis is
reported if the depth falls below zero there for the first time, and otherwise an opening one if the
depth before it never comes back and it is the first of this kind.

* `staysOpen_iff`, `staysOpen_iff_not_matched` : a parenthesis stays open if what follows closes only
  what it opens, or again if it matches no other one.
* `isFirstUnmatched_iff`, `isFirstUnclosed_iff` : before both of these parentheses the text is
  balanced.
* `parenPairs_reports` : when the scan succeeds, and which parenthesis it reports when it fails.
-/

namespace MinedRules

variable {a b t : Text} {o : Nat}

/-- The byte offset is that of the first closing parenthesis with which more are closed than
opened. -/
def IsFirstUnmatched (t : Text) (o : Nat) : Prop :=
  ∃ a b, t = a ++ ')' :: b ∧ o = Text.byteLength a ∧ Text.depth (a ++ [')']) < 0 ∧
    ∀ a' b', a = a' ++ ')' :: b' → 0 ≤ Text.depth (a' ++ [')'])

/-- After a parenthesis between the two texts the depth never returns to what it was before. -/
def StaysOpen (a b : Text) : Prop :=
  ∀ q, q <+: b → Text.depth (a ++ '(' :: q) ≠ Text.depth a

/-- The byte offset is that of the first opening parenthesis that stays open. -/
def IsFirstUnclosed (t : Text) (o : Nat) : Prop :=
  ∃ a b, t = a ++ '(' :: b ∧ o = Text.byteLength a ∧ StaysOpen a b ∧
    ∀ a' b', a = a' ++ '(' :: b' → ¬ StaysOpen a' (b' ++ '(' :: b)

/-! ### Closing parentheses -/

theorem isFirstUnmatched_iff :
    IsFirstUnmatched t o ↔ ∃ a b, t = a ++ ')' :: b ∧ Balanced a ∧ o = Text.byteLength a := by
  constructor
  · rintro ⟨a, b, ht, ho, hneg, hfirst⟩
    refine ⟨a, b, ht, ?_, ho⟩
    rw [Text.depth_close] at hneg
    rcases neverOvercloses_or a with hnever | ⟨a', b', ha, ha'⟩
    · have hnonneg := hnever.depth_nonneg
      refine ⟨hnever, ?_⟩
      simp only [Text.depth] at hneg hnonneg
      omega
    · -- there would be such a parenthesis before
      have hearlier := hfirst a' b' ha
      rw [Text.depth_close, ha'.depth_eq] at hearlier
      omega
  · rintro ⟨a, b, ht, ha, ho⟩
    refine ⟨a, b, ht, ho, ?_, fun a' b' ha' => ?_⟩
    · rw [Text.depth_close, ha.depth_eq]
      omega
    · exact (ha.neverOvercloses.mono ⟨b', by simp [ha']⟩).depth_nonneg

theorem neverOvercloses_iff : NeverOvercloses t ↔ ∀ o, ¬ IsFirstUnmatched t o := by
  constructor
  · intro h o ho
    obtain ⟨a, b, rfl, ha, -⟩ := isFirstUnmatched_iff.1 ho
    exact ha.not_neverOvercloses h
  · intro h
    rcases neverOvercloses_or t with hnever | ⟨a, b, ht, ha⟩
    · exact hnever
    · exact absurd (isFirstUnmatched_iff.2 ⟨a, b, ht, ha, rfl⟩) (h _)

/-! ### Opening parentheses -/

/-- A parenthesis stays open if and only if the text after it closes only what it opens. -/
theorem staysOpen_iff : StaysOpen a b ↔ NeverOvercloses b := by
  constructor
  · intro h
    rcases neverOvercloses_or b with hnever | ⟨b', c, hb, hb'⟩
    · exact hnever
    · -- the parenthesis would be closed where more are closed than opened
      refine absurd ?_ (h (b' ++ [')']) ⟨c, by simp [hb]⟩)
      rw [Text.depth_append, Text.depth_open, Text.depth_close, hb'.depth_eq]
      omega
  · intro h q hq
    have hnonneg := (h.mono hq).depth_nonneg
    rw [Text.depth_append, Text.depth_open]
    omega

theorem staysOpen_iff_not_matched :
    StaysOpen a b ↔ ∀ j, ¬ Matched (a ++ '(' :: b) (Text.byteLength a) j := by
  rw [staysOpen_iff]
  constructor
  · rintro h j ⟨a', b', c, ht, ha, -, hb'⟩
    rw [List.append_assoc] at ht
    obtain ⟨rfl, heq⟩ := Text.append_inj_of_byteLength ht ha
    obtain ⟨-, rfl⟩ := List.cons.inj heq
    exact hb'.not_neverOvercloses h
  · intro h
    rcases neverOvercloses_or b with hnever | ⟨b', c, hb, hb'⟩
    · exact hnever
    · exact absurd ⟨a, b', c, by simp [hb], rfl, rfl, hb'⟩ (h _)

theorem isFirstUnclosed_iff (h : NeverOvercloses t) : IsFirstUnclosed t o ↔
    ∃ a b, t = a ++ '(' :: b ∧ Balanced a ∧ NeverOvercloses b ∧ o = Text.byteLength a := by
  constructor
  · rintro ⟨a, b, rfl, ho, hopen, hfirst⟩
    rw [staysOpen_iff] at hopen
    refine ⟨a, b, rfl, ?_, hopen, ho⟩
    have ha := outcome_parenPairs a
    generalize parenPairs a = r at ha
    cases ha with
    | matched ha => exact ha
    | unmatched ha ha' =>
      exact absurd (h.mono (List.prefix_append _ _)) (ha ▸ ha'.not_neverOvercloses)
    | unclosed ha ha' hb' =>
      -- there would be such a parenthesis before
      exact absurd (staysOpen_iff.2 (hb'.append hopen.cons_open)) (hfirst _ _ ha)
  · rintro ⟨a, b, rfl, ha, hb, ho⟩
    refine ⟨a, b, rfl, ho, staysOpen_iff.2 hb, ?_⟩
    rintro a' b' rfl hopen
    have hb' := (staysOpen_iff.1 hopen).mono (List.prefix_append _ _)
    have ha' := ha.neverOvercloses.mono (List.prefix_append _ _)
    have hlt := ha'.count_lt hb'
    have heq := ha.2
    omega

theorem IsFirstUnclosed.unique {o' : Nat} (h : IsFirstUnclosed t o) (h' : IsFirstUnclosed t o') :
    o = o' := by
  obtain ⟨a, b, rfl, rfl, hopen, hfirst⟩ := h
  obtain ⟨a', b', ht, rfl, hopen', hfirst'⟩ := h'
  rcases append_cons_eq_cases ht with rfl | ⟨q, rfl, rfl⟩ | ⟨q, rfl, rfl⟩
  · rfl
  · exact absurd hopen (hfirst' a q rfl)
  · exact absurd hopen' (hfirst a' q rfl)

/-! ### The outcomes -/

theorem parenPairs_eq_unmatched_iff :
    parenPairs t = .error (.unmatchedClose o) ↔ IsFirstUnmatched t o := by
  have h := outcome_parenPairs t
  rw [isFirstUnmatched_iff]
  generalize parenPairs t = r at h
  constructor
  · rintro rfl
    cases h with
    | unmatched ht ha => exact ⟨_, _, ht, ha, rfl⟩
  · rintro ⟨a, b, rfl, ha, rfl⟩
    cases h with
    | matched ht => exact absurd ht.neverOvercloses ha.not_neverOvercloses
    | unmatched ht ha' => rw [ha.append_close_inj ha' ht]
    | unclosed ht ha' hb' =>
      exact absurd (ht ▸ ha'.neverOvercloses.append hb'.cons_open) ha.not_neverOvercloses

/-- A text that closes only what it opens, and opens more, has a first parenthesis that stays open,
and this one is reported. -/
theorem exists_unclosed (h : NeverOvercloses t) (hcount : t.count ')' < t.count '(') :
    ∃ o, IsFirstUnclosed t o ∧ parenPairs t = .error (.unclosedOpen o) := by
  have hout := outcome_parenPairs t
  generalize parenPairs t = r at hout
  cases hout with
  | matched ht =>
    have heq := ht.2
    omega
  | unmatched ht ha => exact absurd (ht ▸ h) ha.not_neverOvercloses
  | unclosed ht ha hb => exact ⟨_, (isFirstUnclosed_iff h).2 ⟨_, _, ht, ha, hb, rfl⟩, rfl⟩

theorem of_parenPairs_eq_unclosed (h : parenPairs t = .error (.unclosedOpen o)) :
    NeverOvercloses t ∧ t.count ')' < t.count '(' := by
  have hout := outcome_parenPairs t
  rw [h] at hout
  cases hout with
  | unclosed ht ha hb =>
    subst ht
    exact ⟨ha.neverOvercloses.append hb.cons_open, ha.neverOvercloses.count_lt hb⟩

theorem parenPairs_eq_unclosed_iff : parenPairs t = .error (.unclosedOpen o) ↔
    NeverOvercloses t ∧ t.count ')' < t.count '(' ∧ IsFirstUnclosed t o := by
  constructor
  · intro h
    obtain ⟨hnever, hcount⟩ := of_parenPairs_eq_unclosed h
    obtain ⟨o', ho', h'⟩ := exists_unclosed hnever hcount
    obtain rfl : o = o' := by simpa using h.symm.trans h'
    exact ⟨hnever, hcount, ho'⟩
  · rintro ⟨hnever, hcount, ho⟩
    obtain ⟨o', ho', h'⟩ := exists_unclosed hnever hcount
    rw [h', ho'.unique ho]

/-- **When the parentheses of a text can be matched, and which one is reported otherwise.**  It is the
first closing parenthesis that closes more than was opened, whatever follows.  If there is none and
more are opened than closed, it is the first one that stays open, which is to say that no later one
matches it. -/
theorem parenPairs_reports (t : Text) :
    ((∃ pairs, parenPairs t = .ok pairs) ↔ Balanced t) ∧
    (∀ o, parenPairs t = .error (.unmatchedClose o) ↔ IsFirstUnmatched t o) ∧
    (∀ o, parenPairs t = .error (.unclosedOpen o) ↔
      (∀ o', ¬ IsFirstUnmatched t o') ∧ t.count ')' < t.count '(' ∧ IsFirstUnclosed t o) ∧
    ((∀ o', ¬ IsFirstUnmatched t o') → t.count ')' < t.count '(' →
      ∃ o, parenPairs t = .error (.unclosedOpen o)) ∧
    ∀ a b, t = a ++ '(' :: b → (StaysOpen a b ↔ ∀ j, ¬ Matched t (Text.byteLength a) j) := by
  refine ⟨parenPairs_isOk_iff, fun o => parenPairs_eq_unmatched_iff, fun o => ?_, ?_, ?_⟩
  · rw [← neverOvercloses_iff]
    exact parenPairs_eq_unclosed_iff
  · rw [← neverOvercloses_iff]
    intro hnever hcount
    obtain ⟨o, -, h⟩ := exists_unclosed hnever hcount
    exact ⟨o, h⟩
  · rintro a b rfl
    exact staysOpen_iff_not_matched

/-- The second of three open parentheses is closed, so that the first one is reported. -/
theorem parenPairs_reports_unclosed :
    let t := "é(a)((b)(c".toList
    (∀ o', ¬ IsFirstUnmatched t o') ∧ t.count ')' < t.count '(' ∧ IsFirstUnclosed t 5 ∧
      ∃ o, parenPairs t = .error (.unclosedOpen o) := by
  intro t
  have h : parenPairs t = .error (.unclosedOpen 5) := rfl
  obtain ⟨hnone, hcount, hfirst⟩ := ((parenPairs_reports t).2.2.1 5).1 h
  exact ⟨hnone, hcount, hfirst, (parenPairs_reports t).2.2.2.1 hnone hcount⟩

end MinedRules
