import MinedRules.Rule.Inverse

/-!
# Balanced texts

The parentheses of a text are balanced if none is closed that was not opened, and in the end all are
closed (`Balanced`).  The first half of this is a notion of its own (`NeverOvercloses`), since it holds
of what follows a parenthesis that is never closed.

* `closesFrom_zero_iff` : balance can be checked in one pass with a depth.
* `balanced_congr` : only the parentheses of a text matter.
* `Balanced.append_close_inj` : the first parenthesis that closes too much is determined.
* `NeverOvercloses.count_lt` : a parenthesis that is never closed makes the opened ones more.
-/

namespace MinedRules

/-! ### Balanced texts -/

/-- No prefix has more closing than opening parentheses, and in the whole there are as many. -/
def Balanced (t : Text) : Prop :=
  (∀ p, p <+: t → p.count ')' ≤ p.count '(') ∧ t.count '(' = t.count ')'

/-- The text closes what it opens, and `depth` parentheses more. -/
def ClosesFrom : Nat → Text → Prop
  | depth, [] => depth = 0
  | depth, c :: t =>
    if c = '(' then ClosesFrom (depth + 1) t
    else if c = ')' then 0 < depth ∧ ClosesFrom (depth - 1) t
    else ClosesFrom depth t

theorem closesFrom_iff {depth : Nat} {t : Text} :
    ClosesFrom depth t ↔
      (∀ p, p <+: t → p.count ')' ≤ depth + p.count '(') ∧ depth + t.count '(' = t.count ')' := by
  induction t generalizing depth with
  | nil =>
    simp only [ClosesFrom, List.prefix_nil, forall_eq, List.count_nil]
    omega
  | cons c t ih =>
    -- the prefixes of `c :: t` are the empty one and those that go on in `t`
    have hpre : ∀ P : Text → Prop,
        (∀ p, p <+: c :: t → P p) ↔ P [] ∧ ∀ p, p <+: t → P (c :: p) := by
      intro P
      constructor
      · intro h
        exact ⟨h _ List.nil_prefix, fun p hp => h _ (List.prefix_cons_inj c |>.2 hp)⟩
      · rintro ⟨h0, h1⟩ p hp
        rcases List.prefix_cons_iff.1 hp with rfl | ⟨q, rfl, hq⟩
        · exact h0
        · exact h1 q hq
    rw [ClosesFrom, hpre]
    by_cases h1 : c = '('
    · subst h1
      simp only [if_true, ih, List.count_nil, List.count_cons_self,
        List.count_cons_of_ne (show '(' ≠ ')' by decide)]
      have hcomm : ∀ n, depth + 1 + n = depth + (n + 1) := by omega
      simp only [hcomm, Nat.zero_le, true_and]
    · by_cases h2 : c = ')'
      · subst h2
        simp only [if_neg h1, if_true, ih, List.count_nil, List.count_cons_self,
          List.count_cons_of_ne (show ')' ≠ '(' by decide), Nat.zero_le, true_and]
        constructor
        · rintro ⟨hd, h3, h4⟩
          exact ⟨fun p hp => by have := h3 p hp; omega, by omega⟩
        · rintro ⟨h3, h4⟩
          -- the parenthesis alone is a prefix, so one is open before it
          have h0 := h3 [] List.nil_prefix
          simp only [List.count_nil] at h0
          exact ⟨by omega, fun p hp => by have := h3 p hp; omega, by omega⟩
      · simp only [if_neg h1, if_neg h2, ih, List.count_nil, List.count_cons_of_ne h1,
          List.count_cons_of_ne h2, Nat.zero_le, true_and]

theorem closesFrom_zero_iff {t : Text} : ClosesFrom 0 t ↔ Balanced t := by
  simp only [closesFrom_iff, Balanced, Nat.zero_add]

/-- A text that closes what it opens, and `depth` more, leaves the parentheses around these open. -/
theorem closesFrom_append {depth outer : Nat} {a b : Text} (ha : ClosesFrom depth a) :
    ClosesFrom (depth + outer) (a ++ b) ↔ ClosesFrom outer b := by
  induction a generalizing depth with
  | nil =>
    rw [ClosesFrom] at ha
    rw [ha, Nat.zero_add, List.nil_append]
  | cons c a ih =>
    rw [List.cons_append, ClosesFrom]
    rw [ClosesFrom] at ha
    split
    · next h1 =>
      rw [if_pos h1] at ha
      rw [← ih ha, Nat.add_right_comm]
    · next h1 =>
      rw [if_neg h1] at ha
      split
      · next h2 =>
        rw [if_pos h2] at ha
        obtain ⟨hd, ha⟩ := ha
        rw [← ih ha, Nat.sub_add_comm hd]
        exact ⟨fun h => h.2, fun h => ⟨by omega, h⟩⟩
      · next h2 =>
        rw [if_neg h2] at ha
        exact ih ha

theorem closesFrom_of_no_paren {t : Text} (h : ∀ c ∈ t, c ≠ '(' ∧ c ≠ ')') : ClosesFrom 0 t := by
  induction t with
  | nil => rfl
  | cons c t ih =>
    obtain ⟨h1, h2⟩ := h c List.mem_cons_self
    rw [ClosesFrom, if_neg h1, if_neg h2]
    exact ih fun a ha => h a (List.mem_cons_of_mem _ ha)

theorem closesFrom_parens {t : Text} (h : ClosesFrom 0 t) : ClosesFrom 0 ('(' :: t ++ [')']) := by
  rw [List.cons_append, ClosesFrom, if_pos rfl, Nat.zero_add, ← Nat.zero_add 1,
    closesFrom_append h, ClosesFrom]
  simp [ClosesFrom]

theorem closesFrom_filter {depth : Nat} {t : Text} :
    ClosesFrom depth (t.filter isParen) ↔ ClosesFrom depth t := by
  induction t generalizing depth with
  | nil => rfl
  | cons c t ih =>
    by_cases h1 : c = '('
    · subst h1
      rw [List.filter_cons_of_pos (by decide), ClosesFrom, ClosesFrom, if_pos rfl, if_pos rfl, ih]
    · by_cases h2 : c = ')'
      · subst h2
        rw [List.filter_cons_of_pos (by decide), ClosesFrom, ClosesFrom, if_neg h1, if_neg h1,
          if_pos rfl, if_pos rfl, ih]
      · rw [List.filter_cons_of_neg (by simp [isParen, h1, h2]), ClosesFrom, if_neg h1, if_neg h2,
          ih]

theorem balanced_congr {a b : Text} (h : a.filter isParen = b.filter isParen) :
    Balanced a ↔ Balanced b := by
  rw [← closesFrom_zero_iff, ← closesFrom_zero_iff, ← closesFrom_filter, h, closesFrom_filter]

/-! ### Texts that close only what they open -/

variable {a b t : Text} {c : Char}

/-- Wherever one stops reading, no more parentheses are closed than opened. -/
def NeverOvercloses (t : Text) : Prop := ∀ p, p <+: t → p.count ')' ≤ p.count '('

theorem Balanced.neverOvercloses (h : Balanced t) : NeverOvercloses t := h.1

theorem NeverOvercloses.mono (h : NeverOvercloses t) (ha : a <+: t) : NeverOvercloses a :=
  fun p hp => h p (hp.trans ha)

theorem NeverOvercloses.append (ha : NeverOvercloses a) (hb : NeverOvercloses b) :
    NeverOvercloses (a ++ b) := by
  rintro p ⟨rest, hp⟩
  rcases List.append_eq_append_iff.1 hp with ⟨q, rfl, -⟩ | ⟨q, rfl, rfl⟩
  · exact ha p (List.prefix_append p q)
  · have hcount := ha a List.prefix_rfl
    have hcount' := hb q (List.prefix_append q rest)
    simp only [List.count_append]
    omega

theorem NeverOvercloses.cons_open (h : NeverOvercloses b) : NeverOvercloses ('(' :: b) := by
  intro p hp
  rcases List.prefix_cons_iff.1 hp with rfl | ⟨q, rfl, hq⟩
  · simp
  · have hcount := h q hq
    simp only [List.count_cons_self, List.count_cons_of_ne (show '(' ≠ ')' by decide)]
    omega

theorem balanced_nil : Balanced [] := closesFrom_zero_iff.1 rfl

theorem Balanced.append (ha : Balanced a) (hb : Balanced b) : Balanced (a ++ b) :=
  closesFrom_zero_iff.1 ((closesFrom_append (closesFrom_zero_iff.2 ha)).2 (closesFrom_zero_iff.2 hb))

theorem balanced_parens (h : Balanced t) : Balanced ('(' :: t ++ [')']) :=
  closesFrom_zero_iff.1 (closesFrom_parens (closesFrom_zero_iff.2 h))

theorem balanced_singleton (h1 : c ≠ '(') (h2 : c ≠ ')') : Balanced [c] :=
  closesFrom_zero_iff.1 (closesFrom_of_no_paren (by simp [h1, h2]))

theorem Balanced.not_neverOvercloses (h : Balanced a) : ¬ NeverOvercloses (a ++ ')' :: b) := by
  intro hnever
  have hcount := hnever (a ++ [')']) ⟨b, by simp⟩
  have heq := h.2
  simp only [List.count_append, List.count_singleton] at hcount
  simp at hcount
  omega

theorem append_cons_eq_cases {x : Char} {a b a' b' : Text} (h : a ++ x :: b = a' ++ x :: b') :
    a = a' ∨ (∃ q, a' = a ++ x :: q ∧ b = q ++ x :: b') ∨ ∃ q, a = a' ++ x :: q ∧ b' = q ++ x :: b := by
  rcases List.append_eq_append_iff.1 h with ⟨q, rfl, hq⟩ | ⟨q, rfl, hq⟩
  · cases q with
    | nil => exact .inl (by simp)
    | cons d q =>
      obtain ⟨rfl, rfl⟩ := List.cons.inj hq
      exact .inr (.inl ⟨q, rfl, rfl⟩)
  · cases q with
    | nil => exact .inl (by simp)
    | cons d q =>
      obtain ⟨rfl, rfl⟩ := List.cons.inj hq
      exact .inr (.inr ⟨q, rfl, rfl⟩)

/-- The first parenthesis that closes more than was opened is determined: where it is met, this
happens for the first time. -/
theorem Balanced.append_close_inj {a' b' : Text} (ha : Balanced a) (ha' : Balanced a')
    (h : a ++ ')' :: b = a' ++ ')' :: b') : a = a' := by
  rcases append_cons_eq_cases h with heq | ⟨q, rfl, -⟩ | ⟨q, rfl, -⟩
  · exact heq
  · exact absurd ha'.neverOvercloses ha.not_neverOvercloses
  · exact absurd ha.neverOvercloses ha'.not_neverOvercloses

theorem NeverOvercloses.count_lt (ha : NeverOvercloses a) (hb : NeverOvercloses b) :
    (a ++ '(' :: b).count ')' < (a ++ '(' :: b).count '(' := by
  have hcount := ha a List.prefix_rfl
  have hcount' := hb b List.prefix_rfl
  simp only [List.count_append, List.count_cons_self,
    List.count_cons_of_ne (show '(' ≠ ')' by decide)]
  omega

/-! ### Depths -/

/-- How many more parentheses are opened than closed. -/
def Text.depth (t : Text) : Int := t.count '(' - t.count ')'

theorem Text.depth_append (a b : Text) : depth (a ++ b) = depth a + depth b := by
  simp only [depth, List.count_append]
  omega

theorem Text.depth_open (t : Text) : depth ('(' :: t) = depth t + 1 := by
  simp only [depth, List.count_cons_self, List.count_cons_of_ne (show '(' ≠ ')' by decide)]
  omega

theorem Text.depth_close (t : Text) : depth (t ++ [')']) = depth t - 1 := by
  rw [depth_append]
  rfl

theorem Balanced.depth_eq (h : Balanced t) : Text.depth t = 0 := by
  have heq := h.2
  simp only [Text.depth]
  omega

theorem NeverOvercloses.depth_nonneg (h : NeverOvercloses t) : 0 ≤ Text.depth t := by
  have hle := h t List.prefix_rfl
  simp only [Text.depth]
  omega

end MinedRules
