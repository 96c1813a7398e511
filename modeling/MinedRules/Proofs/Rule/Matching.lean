import MinedRules.Proofs.Rule.Opened
import MinedRules.Proofs.Text.Encoding
import Mathlib.Data.List.Pairwise

/-!
# Matched pairs

Two parentheses match if the text between them is balanced (`Matched`), a notion without a stack.  If
the parentheses of a text can be matched, `parenPairs` lists exactly the pairs that match.

* `parenPairs_eq_bytePairs` : the scan may as well read the bytes of the text, since no byte of a
  longer character looks like a parenthesis.
* `Matched.unique` : a parenthesis matches at most one later one.
* `matched_of_mem_parenPairsFrom` : what the scan lists are matches.
* `exists_stack` : the state of the scan wherever the text is cut.
* `parenPairs_isMatching` : every match is listed, every parenthesis stands in one pair, and the pairs
  stand in the order in which they are closed, so that inner pairs come first.
-/

namespace MinedRules

variable {a b t front : Text} {opened : List Nat} {pairs : List (Nat × Nat)} {c : Char} {i j : Nat}

theorem Text.append_inj_of_byteLength {a b a' b' : Text} (h : a ++ b = a' ++ b')
    (hlength : byteLength a = byteLength a') : a = a' ∧ b = b' := by
  have hcut := cutAtByte?_byteLength a b
  rw [h, hlength, cutAtByte?_byteLength] at hcut
  simpa [eq_comm] using hcut

/-! ### Reading bytes -/

/-- The matched pairs of the bytes from offset `position` on, inside the parentheses that `opened`
lists. -/
def bytePairsFrom (position : Nat) (opened : List Nat) :
    List UInt8 → Except RuleError (List (Nat × Nat))
  | [] =>
    match opened.getLast? with
    | none => .ok []
    | some outermost => .error (.unclosedOpen outermost)
  | x :: bytes =>
    if x = 0x28 then bytePairsFrom (position + 1) (position :: opened) bytes
    else if x = 0x29 then
      match opened with
      | [] => .error (.unmatchedClose position)
      | start :: opened =>
        (bytePairsFrom (position + 1) opened bytes).map ((start, position) :: ·)
    else bytePairsFrom (position + 1) opened bytes

/-- The matched pairs of an encoded text, found byte by byte. -/
def bytePairs (bytes : List UInt8) : Except RuleError (List (Nat × Nat)) := bytePairsFrom 0 [] bytes

theorem bytePairsFrom_skip {position : Nat} {bytes : List UInt8} (rest : List UInt8)
    (h : ∀ x ∈ bytes, x ≠ 0x28 ∧ x ≠ 0x29) :
    bytePairsFrom position opened (bytes ++ rest) =
      bytePairsFrom (position + bytes.length) opened rest := by
  induction bytes generalizing position with
  | nil => rfl
  | cons x bytes ih =>
    obtain ⟨h1, h2⟩ := h x List.mem_cons_self
    rw [List.cons_append, bytePairsFrom.eq_def]
    simp only [if_neg h1, if_neg h2]
    rw [ih fun y hy => h y (List.mem_cons_of_mem _ hy), List.length_cons, Nat.add_assoc,
      Nat.add_comm 1]

/-- Only a parenthesis has the byte of one in its encoding. -/
theorem ne_of_mem_utf8EncodeChar (h1 : c ≠ '(') (h2 : c ≠ ')') :
    ∀ x ∈ String.utf8EncodeChar c, x ≠ 0x28 ∧ x ≠ 0x29 := by
  intro x hx
  constructor <;> rintro rfl
  · exact h1 (Char.toNat_inj.1 (Text.toNat_of_mem_utf8EncodeChar hx (by decide)))
  · exact h2 (Char.toNat_inj.1 (Text.toNat_of_mem_utf8EncodeChar hx (by decide)))

theorem bytePairsFrom_encode (position : Nat) (opened : List Nat) (t : Text) :
    bytePairsFrom position opened (Text.encode t) = parenPairsFrom position opened t := by
  induction t generalizing position opened with
  | nil => rfl
  | cons c t ih =>
    rw [Text.encode_cons]
    by_cases h1 : c = '('
    · subst h1
      rw [parenPairsFrom_open, ← ih]
      rfl
    · by_cases h2 : c = ')'
      · subst h2
        cases opened with
        | nil =>
          rw [parenPairsFrom_close_nil]
          rfl
        | cons s outer =>
          rw [parenPairsFrom_close, ← ih]
          rfl
      · rw [parenPairsFrom_of_not_paren h1 h2, bytePairsFrom_skip _ (ne_of_mem_utf8EncodeChar h1 h2),
          String.length_utf8EncodeChar, ih]

/-- **Reading the bytes of a text finds the same pairs.** -/
theorem parenPairs_eq_bytePairs (t : Text) : parenPairs t = bytePairs t.encode :=
  (bytePairsFrom_encode 0 [] t).symm

/-! ### Matches -/

/-- At the byte offsets stand an opening and a later closing parenthesis, and the text strictly
between them is balanced. -/
def Matched (t : Text) (i j : Nat) : Prop :=
  ∃ a b c, t = a ++ '(' :: b ++ ')' :: c ∧ i = Text.byteLength a ∧
    j = Text.byteLength (a ++ '(' :: b) ∧ Balanced b

namespace Matched

theorem lt (h : Matched t i j) : i < j := by
  obtain ⟨a, b, c, -, rfl, rfl, -⟩ := h
  have hopen := '('.utf8Size_pos
  simp only [Text.byteLength_append, Text.byteLength_cons]
  omega

theorem eq_open (h : Matched t (Text.byteLength a) j) (ht : t = a ++ c :: b) : c = '(' := by
  obtain ⟨a', b', c', rfl, hi, -, -⟩ := h
  rw [List.append_assoc] at ht
  obtain ⟨-, heq⟩ := Text.append_inj_of_byteLength ht hi.symm
  exact (List.cons.inj heq).1.symm

theorem eq_close (h : Matched t i (Text.byteLength a)) (ht : t = a ++ c :: b) : c = ')' := by
  obtain ⟨a', b', c', rfl, -, hj, -⟩ := h
  obtain ⟨-, heq⟩ := Text.append_inj_of_byteLength ht hj.symm
  exact (List.cons.inj heq).1.symm

/-- A parenthesis matches at most one later one: where it is closed first, one more is closed than
opened, and this happens nowhere in the balanced text before a match. -/
theorem unique {j' : Nat} (h : Matched t i j) (h' : Matched t i j') : j = j' := by
  obtain ⟨a, b, c, rfl, hi, rfl, hb⟩ := h
  obtain ⟨a', b', c', ht, hi', rfl, hb'⟩ := h'
  rw [List.append_assoc, List.append_assoc] at ht
  obtain ⟨rfl, heq⟩ := Text.append_inj_of_byteLength ht (hi.symm.trans hi')
  have hrest : b ++ ')' :: c = b' ++ ')' :: c' := (List.cons.inj heq).2
  rw [hb.append_close_inj hb' hrest]

end Matched

/-! ### What the scan lists -/

theorem matched_of_mem_parenPairsFrom (hopen : LeavesOpen front opened)
    (h : parenPairsFrom (Text.byteLength front) opened t = .ok pairs) :
    ∀ p ∈ pairs, Matched (front ++ t) p.1 p.2 ∧ Text.byteLength front ≤ p.2 := by
  induction t generalizing front opened pairs with
  | nil =>
    obtain ⟨-, rfl⟩ := parenPairsFrom_nil_eq_ok h
    simp
  | cons c t ih =>
    obtain ⟨opened', hopen', hstep⟩ := step_parenPairsFrom hopen h
    -- what is listed later ends later
    have hlater : ∀ {later}, parenPairsFrom (Text.byteLength (front ++ [c])) opened' t = .ok later →
        ∀ p ∈ later, Matched (front ++ c :: t) p.1 p.2 ∧ Text.byteLength front ≤ p.2 := by
      intro later ht p hp
      obtain ⟨hmatched, hle⟩ := ih hopen' ht p hp
      rw [← List.append_cons] at hmatched
      rw [Text.byteLength_concat] at hle
      exact ⟨hmatched, by omega⟩
    rcases hstep with ht | ⟨s, later, rfl, rfl, rfl, ht⟩
    · exact hlater ht
    · intro p hp
      rcases List.mem_cons.1 hp with rfl | hp
      · obtain ⟨a, b, rfl, hs, -, hb⟩ := hopen.exists_innermost
        exact ⟨⟨a, b, t, rfl, hs, rfl, hb⟩, Nat.le_refl _⟩
      · exact hlater ht p hp

section Ends

variable {position : Nat}

/-- Every pair that ends in a text begins at one of the parentheses that were open before, or in the
text. -/
theorem start_of_mem_parenPairsFrom (h : parenPairsFrom position opened t = .ok pairs) :
    ∀ p ∈ pairs, p.1 ∈ opened ∨ position ≤ p.1 := by
  induction t generalizing position opened pairs with
  | nil =>
    obtain ⟨rfl, rfl⟩ := parenPairsFrom_nil_eq_ok h
    simp
  | cons c t ih =>
    intro p hp
    rcases parenPairsFrom_cons_eq_ok h with
      ⟨-, ht⟩ | ⟨-, s, outer, later, rfl, rfl, ht⟩ | ⟨-, -, ht⟩
    · rcases ih ht p hp with hs | hs
      · rcases List.mem_cons.1 hs with hs | hs
        · exact .inr (by omega)
        · exact .inl hs
      · exact .inr (by omega)
    · rcases List.mem_cons.1 hp with rfl | hp
      · exact .inl List.mem_cons_self
      · rcases ih ht p hp with hs | hs
        · exact .inl (List.mem_cons_of_mem _ hs)
        · exact .inr (by omega)
    · rcases ih ht p hp with hs | hs
      · exact .inl hs
      · exact .inr (by omega)

theorem exists_end_of_mem_opened (h : parenPairsFrom position opened t = .ok pairs) :
    ∀ s ∈ opened, ∃ e, position ≤ e ∧ (s, e) ∈ pairs := by
  induction t generalizing position opened pairs with
  | nil =>
    obtain ⟨rfl, rfl⟩ := parenPairsFrom_nil_eq_ok h
    simp
  | cons c t ih =>
    intro s hs
    rcases parenPairsFrom_cons_eq_ok h with
      ⟨-, ht⟩ | ⟨-, start, outer, later, rfl, rfl, ht⟩ | ⟨-, -, ht⟩
    · obtain ⟨e, he, hmem⟩ := ih ht s (List.mem_cons_of_mem _ hs)
      exact ⟨e, by omega, hmem⟩
    · rcases List.mem_cons.1 hs with rfl | hs
      · exact ⟨position, Nat.le_refl _, List.mem_cons_self⟩
      · obtain ⟨e, he, hmem⟩ := ih ht s hs
        exact ⟨e, by omega, List.mem_cons_of_mem _ hmem⟩
    · obtain ⟨e, he, hmem⟩ := ih ht s hs
      exact ⟨e, by omega, hmem⟩

end Ends

/-- Wherever the text is cut, the stack lists the parentheses open there, and the pairs that are
still to come end the list. -/
theorem exists_stack (hopen : LeavesOpen front opened)
    (h : parenPairsFrom (Text.byteLength front) opened (a ++ b) = .ok pairs) :
    ∃ opened' later, LeavesOpen (front ++ a) opened' ∧
      parenPairsFrom (Text.byteLength (front ++ a)) opened' b = .ok later ∧ later <:+ pairs := by
  induction a generalizing front opened pairs with
  | nil => exact ⟨opened, pairs, by simpa using hopen, by simpa using h, List.suffix_rfl⟩
  | cons c a ih =>
    obtain ⟨opened', hopen', hstep⟩ := step_parenPairsFrom hopen h
    rw [List.append_cons]
    rcases hstep with ht | ⟨s, later, -, -, rfl, ht⟩
    · exact ih hopen' ht
    · obtain ⟨opened'', later', ho, hl, hsuffix⟩ := ih hopen' ht
      exact ⟨opened'', later', ho, hl, hsuffix.trans (List.suffix_cons _ _)⟩

theorem exists_pair_of_open (h : parenPairs (a ++ '(' :: b) = .ok pairs) :
    ∃ e, (Text.byteLength a, e) ∈ pairs := by
  obtain ⟨opened, later, -, hl, hsuffix⟩ :=
    @exists_stack a ('(' :: b) [] [] pairs (.balanced balanced_nil) h
  rw [List.nil_append, parenPairsFrom_open] at hl
  obtain ⟨e, -, he⟩ := exists_end_of_mem_opened hl _ List.mem_cons_self
  exact ⟨e, hsuffix.subset he⟩

theorem exists_pair_of_close (h : parenPairs (a ++ ')' :: b) = .ok pairs) :
    ∃ s, (s, Text.byteLength a) ∈ pairs := by
  obtain ⟨opened, later, -, hl, hsuffix⟩ :=
    @exists_stack a (')' :: b) [] [] pairs (.balanced balanced_nil) h
  rcases parenPairsFrom_cons_eq_ok hl with ⟨hc, -⟩ | ⟨-, s, _, _, -, rfl, -⟩ | ⟨-, hc, -⟩
  · exact absurd hc (by decide)
  · exact ⟨s, hsuffix.subset List.mem_cons_self⟩
  · exact absurd rfl hc

theorem matched_of_mem_parenPairs (h : parenPairs t = .ok pairs) :
    ∀ p ∈ pairs, Matched t p.1 p.2 := fun p hp =>
  (@matched_of_mem_parenPairsFrom t [] [] pairs (.balanced balanced_nil) h p hp).1

/-! ### The order of the list -/

/-- The first pair is closed first, and it lies before the second one or in it. -/
def ClosedBefore (p q : Nat × Nat) : Prop := p.2 < q.2 ∧ (p.2 < q.1 ∨ q.1 < p.1)

theorem pairwise_parenPairsFrom (hopen : LeavesOpen front opened)
    (h : parenPairsFrom (Text.byteLength front) opened t = .ok pairs) :
    pairs.Pairwise ClosedBefore := by
  induction t generalizing front opened pairs with
  | nil =>
    obtain ⟨-, rfl⟩ := parenPairsFrom_nil_eq_ok h
    exact .nil
  | cons c t ih =>
    obtain ⟨opened', hopen', hstep⟩ := step_parenPairsFrom hopen h
    rcases hstep with ht | ⟨s, later, rfl, rfl, rfl, ht⟩
    · exact ih hopen' ht
    · refine List.pairwise_cons.2 ⟨fun q hq => ?_, ih hopen' ht⟩
      have hclose := ')'.utf8Size_pos
      have hend := (matched_of_mem_parenPairsFrom hopen' ht q hq).2
      have hstart := start_of_mem_parenPairsFrom ht q hq
      rw [Text.byteLength_concat] at hend hstart
      refine ⟨by omega, ?_⟩
      -- a later pair begins at one of the parentheses that are still open, or later
      rcases hstart with hq | hq
      · exact .inr (hopen.lt_innermost q.1 hq)
      · exact .inl (by omega)

theorem pairwise_parenPairs (h : parenPairs t = .ok pairs) : pairs.Pairwise ClosedBefore :=
  @pairwise_parenPairsFrom t [] [] pairs (.balanced balanced_nil) h

theorem eq_of_mem_parenPairs (h : parenPairs t = .ok pairs) {p q : Nat × Nat} (hp : p ∈ pairs)
    (hq : q ∈ pairs) (hpq : p.1 = q.1 ∨ p.2 = q.2) : p = q := by
  have hapart : pairs.Pairwise fun p q => p.1 ≠ q.1 ∧ p.2 ≠ q.2 := by
    refine (pairwise_parenPairs h).imp_of_mem fun {p q} hp hq hbefore => ?_
    have hlt := (matched_of_mem_parenPairs h p hp).lt
    obtain ⟨hclosed, hbegin⟩ := hbefore
    omega
  have hsymm : Std.Symm fun p q : Nat × Nat => p.1 ≠ q.1 ∧ p.2 ≠ q.2 :=
    ⟨fun _ _ h => ⟨h.1.symm, h.2.symm⟩⟩
  by_contra hne
  obtain ⟨h1, h2⟩ := hapart.forall hp hq hne
  exact hpq.elim h1 h2

/-! ### All matches -/

/-- The list has exactly the matches of the text, and each parenthesis in one of them.  The pairs are
nested or apart, and an inner one comes first. -/
structure IsMatching (t : Text) (pairs : List (Nat × Nat)) : Prop where
  mem_iff : ∀ i j, (i, j) ∈ pairs ↔ Matched t i j
  once : ∀ a c b, t = a ++ c :: b → isParen c = true →
    ∃! p, p ∈ pairs ∧ (p.1 = Text.byteLength a ∨ p.2 = Text.byteLength a)
  ordered : pairs.Pairwise ClosedBefore

theorem mem_parenPairs_iff (h : parenPairs t = .ok pairs) : (i, j) ∈ pairs ↔ Matched t i j := by
  refine ⟨matched_of_mem_parenPairs h (i, j), fun hmatched => ?_⟩
  obtain ⟨a, b, c, rfl, rfl, rfl, hb⟩ := hmatched
  -- the parenthesis begins a pair, and this is the only match that it can begin
  obtain ⟨e, he⟩ := exists_pair_of_open (a := a) (b := b ++ ')' :: c) (by simpa using h)
  have hend := (matched_of_mem_parenPairs h _ he).unique ⟨a, b, c, rfl, rfl, rfl, hb⟩
  exact hend ▸ he

theorem existsUnique_pair (h : parenPairs t = .ok pairs) (ht : t = a ++ c :: b)
    (hc : isParen c = true) :
    ∃! p, p ∈ pairs ∧ (p.1 = Text.byteLength a ∨ p.2 = Text.byteLength a) := by
  have hopen : ∀ p ∈ pairs, p.1 = Text.byteLength a → c = '(' := fun p hp ho =>
    (ho ▸ matched_of_mem_parenPairs h p hp).eq_open ht
  have hclose : ∀ p ∈ pairs, p.2 = Text.byteLength a → c = ')' := fun p hp ho =>
    (ho ▸ matched_of_mem_parenPairs h p hp).eq_close ht
  obtain ⟨p, hp, ho⟩ :
      ∃ p, p ∈ pairs ∧ (p.1 = Text.byteLength a ∨ p.2 = Text.byteLength a) := by
    simp only [isParen, Bool.or_eq_true, beq_iff_eq] at hc
    rcases hc with rfl | rfl
    · obtain ⟨e, he⟩ := exists_pair_of_open (ht ▸ h)
      exact ⟨_, he, .inl rfl⟩
    · obtain ⟨s, hs⟩ := exists_pair_of_close (ht ▸ h)
      exact ⟨_, hs, .inr rfl⟩
  refine ⟨p, ⟨hp, ho⟩, fun q hq => eq_of_mem_parenPairs h hq.1 hp ?_⟩
  -- an opening parenthesis is no closing one, so it is the same end of both pairs
  rcases hq with ⟨hq, hqo | hqo⟩ <;> rcases ho with ho | ho
  · exact .inl (hqo.trans ho.symm)
  · exact absurd ((hopen q hq hqo).symm.trans (hclose p hp ho)) (by decide)
  · exact absurd ((hopen p hp ho).symm.trans (hclose q hq hqo)) (by decide)
  · exact .inr (hqo.trans ho.symm)

/-- **The scan lists exactly the matched pairs**, whether it reads characters or bytes. -/
theorem parenPairs_isMatching (t : Text) :
    parenPairs t = bytePairs t.encode ∧
      ∀ pairs, parenPairs t = .ok pairs → IsMatching t pairs := by
  refine ⟨parenPairs_eq_bytePairs t, fun pairs h => ?_⟩
  exact ⟨fun i j => mem_parenPairs_iff h, fun a c b => existsUnique_pair h, pairwise_parenPairs h⟩

/-- Offsets count the bytes of `é`, `ü` and `ß`. -/
theorem parenPairs_isMatching_nested :
    let t := "é((ü),(x))ß(y)".toList
    let pairs := [(3, 6), (8, 10), (2, 11), (14, 16)]
    parenPairs t = .ok pairs ∧ IsMatching t pairs := by
  intro t pairs
  have h : parenPairs t = .ok pairs := rfl
  exact ⟨h, (parenPairs_isMatching t).2 pairs h⟩

end MinedRules
