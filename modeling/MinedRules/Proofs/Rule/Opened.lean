import MinedRules.Proofs.Rule.Balance
import MinedRules.Rule.Parens

/-!
# The parentheses that a text leaves open

Reading a text from left to right, the stack of `parenPairsFrom` lists the parentheses that are
opened and not closed so far.  Said of the text alone: the text is cut at these parentheses, and
every part between them is balanced (`LeavesOpen`).  Each character changes the list at its front,
so that the list stands for what was read at every moment of the scan.

* `LeavesOpen.push`, `LeavesOpen.pop`, `LeavesOpen.append` : what one character does to the list.
* `step_parenPairsFrom` : one step of a scan that succeeds.
* `outcome_parenPairs` : how a text is related to the outcome of the scan, whatever the outcome.
* `parenPairs_isOk_iff` : the parentheses can be matched if and only if the text is balanced.
* `neverOvercloses_or` : a text closes only what it opens, or a balanced beginning of it is followed
  by a closing parenthesis.
-/

namespace MinedRules

variable {a b t front : Text} {opened outer : List Nat} {c : Char} {s o : Nat}

/-! ### One character of the scan -/

theorem parenPairsFrom_open (position : Nat) (opened : List Nat) (t : Text) :
    parenPairsFrom position opened ('(' :: t) =
      parenPairsFrom (position + '('.utf8Size) (position :: opened) t := by
  rw [parenPairsFrom.eq_def]
  rfl

theorem parenPairsFrom_close_nil (position : Nat) (t : Text) :
    parenPairsFrom position [] (')' :: t) = .error (.unmatchedClose position) := by
  rw [parenPairsFrom.eq_def]
  rfl

theorem parenPairsFrom_close (position s : Nat) (outer : List Nat) (t : Text) :
    parenPairsFrom position (s :: outer) (')' :: t) =
      (parenPairsFrom (position + ')'.utf8Size) outer t).map ((s, position) :: ·) := by
  rw [parenPairsFrom.eq_def]
  simp only [Char.reduceEq, if_false, if_true]
  cases parenPairsFrom (position + ')'.utf8Size) outer t <;> rfl

theorem parenPairsFrom_of_not_paren {position : Nat} (h1 : c ≠ '(') (h2 : c ≠ ')') :
    parenPairsFrom position opened (c :: t) = parenPairsFrom (position + c.utf8Size) opened t := by
  rw [parenPairsFrom.eq_def]
  simp only [if_neg h1, if_neg h2]

section Success

variable {position : Nat} {pairs : List (Nat × Nat)}

theorem parenPairsFrom_nil_eq_ok (h : parenPairsFrom position opened [] = .ok pairs) :
    opened = [] ∧ pairs = [] := by
  cases opened with
  | nil => simpa [parenPairsFrom] using h.symm
  | cons s opened => simp [parenPairsFrom, List.getLast?_cons] at h

/-- What one character does: it opens a parenthesis, ends the innermost open one, or is none. -/
theorem parenPairsFrom_cons_eq_ok
    (h : parenPairsFrom position opened (c :: t) = .ok pairs) :
    (c = '(' ∧ parenPairsFrom (position + c.utf8Size) (position :: opened) t = .ok pairs) ∨
      (c = ')' ∧ ∃ start outer later, opened = start :: outer ∧ pairs = (start, position) :: later ∧
        parenPairsFrom (position + c.utf8Size) outer t = .ok later) ∨
      (c ≠ '(' ∧ c ≠ ')' ∧ parenPairsFrom (position + c.utf8Size) opened t = .ok pairs) := by
  unfold parenPairsFrom at h
  split at h
  · next hc => exact .inl ⟨hc, h⟩
  · next hc =>
    split at h
    · next hc' =>
      cases opened with
      | nil => simp at h
      | cons start outer =>
        simp only at h
        split at h
        · next later hlater =>
          rw [Except.ok.injEq] at h
          exact .inr (.inl ⟨hc', start, outer, later, rfl, h.symm, hlater⟩)
        · simp at h
    · next hc' => exact .inr (.inr ⟨hc, hc', h⟩)

end Success

/-! ### Open parentheses -/

/-- The parentheses that stand open at the end of a text, by their byte offsets, the innermost one
first. -/
inductive LeavesOpen : Text → List Nat → Prop
  /-- A balanced text leaves none open. -/
  | balanced {t : Text} (ht : Balanced t) : LeavesOpen t []
  /-- A parenthesis is opened, and all that is opened after it is closed. -/
  | opening {a b : Text} {opened : List Nat} (ha : LeavesOpen a opened) (hb : Balanced b) :
    LeavesOpen (a ++ '(' :: b) (Text.byteLength a :: opened)

namespace LeavesOpen

theorem append (h : LeavesOpen t opened) (hb : Balanced b) : LeavesOpen (t ++ b) opened := by
  cases h with
  | balanced ht => exact .balanced (ht.append hb)
  | opening ha hb' =>
    rw [List.append_assoc, List.cons_append]
    exact .opening ha (hb'.append hb)

theorem push (h : LeavesOpen t opened) : LeavesOpen (t ++ ['(']) (Text.byteLength t :: opened) :=
  .opening h balanced_nil

/-- The innermost open parenthesis has a balanced text behind it, and before it the others are
open. -/
theorem exists_innermost (h : LeavesOpen t (s :: outer)) :
    ∃ a b, t = a ++ '(' :: b ∧ s = Text.byteLength a ∧ LeavesOpen a outer ∧ Balanced b := by
  cases h with
  | opening ha hb => exact ⟨_, _, rfl, rfl, ha, hb⟩

theorem pop (h : LeavesOpen t (s :: outer)) : LeavesOpen (t ++ [')']) outer := by
  obtain ⟨a, b, rfl, -, ha, hb⟩ := h.exists_innermost
  have hpair := ha.append (balanced_parens hb)
  rwa [← List.append_assoc] at hpair

theorem lt_byteLength (h : LeavesOpen t opened) : ∀ s ∈ opened, s < Text.byteLength t := by
  induction h with
  | balanced _ => simp
  | opening _ _ ih =>
    have hopen := '('.utf8Size_pos
    intro s hs
    simp only [Text.byteLength_append, Text.byteLength_cons]
    rcases List.mem_cons.1 hs with rfl | hs
    · omega
    · have hlt := ih s hs
      omega

theorem lt_innermost (h : LeavesOpen t (s :: outer)) : ∀ o ∈ outer, o < s := by
  obtain ⟨a, b, -, rfl, ha, -⟩ := h.exists_innermost
  exact ha.lt_byteLength

theorem exists_outermost (h : LeavesOpen t opened) (ho : opened.getLast? = some o) :
    ∃ a b, t = a ++ '(' :: b ∧ o = Text.byteLength a ∧ Balanced a ∧ NeverOvercloses b := by
  induction h with
  | balanced _ => simp at ho
  | @opening a b opened ha hb ih =>
    cases ha with
    | balanced ht =>
      obtain rfl : Text.byteLength a = o := by simpa using ho
      exact ⟨a, b, rfl, rfl, ht, hb.neverOvercloses⟩
    | opening ha' hb' =>
      -- the outermost one was open before this one
      obtain ⟨a', b', ht, ho', ha'', hb''⟩ := ih (by simpa using ho)
      refine ⟨a', b' ++ '(' :: b, by simp [ht], ho', ha'', ?_⟩
      exact hb''.append hb.neverOvercloses.cons_open

end LeavesOpen

theorem Text.byteLength_concat (t : Text) (c : Char) :
    byteLength (t ++ [c]) = byteLength t + c.utf8Size := by simp

/-- **One step of a scan that succeeds**: the stack goes on to stand for what was read, and a closing
parenthesis is listed with the innermost open one. -/
theorem step_parenPairsFrom {pairs : List (Nat × Nat)} (hopen : LeavesOpen front opened)
    (h : parenPairsFrom (Text.byteLength front) opened (c :: t) = .ok pairs) :
    ∃ opened', LeavesOpen (front ++ [c]) opened' ∧
      (parenPairsFrom (Text.byteLength (front ++ [c])) opened' t = .ok pairs ∨
        ∃ s later, c = ')' ∧ opened = s :: opened' ∧ pairs = (s, Text.byteLength front) :: later ∧
          parenPairsFrom (Text.byteLength (front ++ [c])) opened' t = .ok later) := by
  rw [Text.byteLength_concat]
  rcases parenPairsFrom_cons_eq_ok h with
    ⟨rfl, ht⟩ | ⟨rfl, s, outer, later, rfl, rfl, ht⟩ | ⟨h1, h2, ht⟩
  · exact ⟨_, hopen.push, .inl ht⟩
  · exact ⟨outer, hopen.pop, .inr ⟨s, later, rfl, rfl, rfl, ht⟩⟩
  · exact ⟨opened, hopen.append (balanced_singleton h1 h2), .inl ht⟩

/-! ### The outcome of a scan -/

/-- What a text is like, given what comes of matching its parentheses: it is balanced, or it closes
one at the end of a balanced beginning, or it opens one there that it never closes. -/
inductive MatchOutcome (t : Text) : Except RuleError (List (Nat × Nat)) → Prop
  | matched {pairs : List (Nat × Nat)} (ht : Balanced t) : MatchOutcome t (.ok pairs)
  | unmatched {a b : Text} (ht : t = a ++ ')' :: b) (ha : Balanced a) :
    MatchOutcome t (.error (.unmatchedClose (Text.byteLength a)))
  | unclosed {a b : Text} (ht : t = a ++ '(' :: b) (ha : Balanced a) (hb : NeverOvercloses b) :
    MatchOutcome t (.error (.unclosedOpen (Text.byteLength a)))

theorem MatchOutcome.map {r : Except RuleError (List (Nat × Nat))} (h : MatchOutcome t r)
    (f : List (Nat × Nat) → List (Nat × Nat)) : MatchOutcome t (r.map f) := by
  cases h with
  | matched ht => exact .matched ht
  | unmatched ht ha => exact .unmatched ht ha
  | unclosed ht ha hb => exact .unclosed ht ha hb

theorem outcome_parenPairsFrom (h : LeavesOpen front opened) :
    MatchOutcome (front ++ t) (parenPairsFrom (Text.byteLength front) opened t) := by
  induction t generalizing front opened with
  | nil =>
    rw [List.append_nil, parenPairsFrom]
    split
    · next ho =>
      rw [List.getLast?_eq_none_iff] at ho
      subst ho
      cases h with
      | balanced ht => exact .matched ht
    · next ho =>
      obtain ⟨a, b, ht, rfl, ha, hb⟩ := h.exists_outermost ho
      exact .unclosed ht ha hb
  | cons c t ih =>
    by_cases h1 : c = '('
    · subst h1
      rw [parenPairsFrom_open, List.append_cons, ← Text.byteLength_concat]
      exact ih h.push
    · by_cases h2 : c = ')'
      · subst h2
        cases opened with
        | nil =>
          cases h with
          | balanced hb =>
            rw [parenPairsFrom_close_nil]
            exact .unmatched rfl hb
        | cons s outer =>
          rw [parenPairsFrom_close, List.append_cons, ← Text.byteLength_concat]
          exact (ih h.pop).map _
      · rw [parenPairsFrom_of_not_paren h1 h2, List.append_cons, ← Text.byteLength_concat]
        exact ih (h.append (balanced_singleton h1 h2))

/-- **The outcome of matching tells what the text is like.** -/
theorem outcome_parenPairs (t : Text) : MatchOutcome t (parenPairs t) :=
  @outcome_parenPairsFrom t [] [] (.balanced balanced_nil)

/-- **The parentheses of a text can be matched if and only if the text is balanced.** -/
theorem parenPairs_isOk_iff : (∃ pairs, parenPairs t = .ok pairs) ↔ Balanced t := by
  have h := outcome_parenPairs t
  generalize parenPairs t = r at h
  cases h with
  | matched ht => simp [ht]
  | unmatched ht ha =>
    have hno : ¬ Balanced t := fun hbal => ha.not_neverOvercloses (ht ▸ hbal.neverOvercloses)
    simp [hno]
  | unclosed ht ha hb =>
    have hno : ¬ Balanced t := fun hbal => by
      have hlt := ha.neverOvercloses.count_lt hb
      rw [← ht, hbal.2] at hlt
      exact Nat.lt_irrefl _ hlt
    simp [hno]

theorem neverOvercloses_or (t : Text) :
    NeverOvercloses t ∨ ∃ a b, t = a ++ ')' :: b ∧ Balanced a := by
  have h := outcome_parenPairs t
  generalize parenPairs t = r at h
  cases h with
  | matched ht => exact .inl ht.neverOvercloses
  | unmatched ht ha => exact .inr ⟨_, _, ht, ha⟩
  | unclosed ht ha hb =>
    rw [ht]
    exact .inl (ha.neverOvercloses.append hb.cons_open)

end MinedRules
