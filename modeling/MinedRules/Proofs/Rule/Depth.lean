import MinedRules.Proofs.Rule.Matching
import MinedRules.Proofs.Text.Uppercase
import MinedRules.Rule.Variables
import Mathlib.Data.List.Forall2

/-!
# The depth of parentheses

`markVariables` changes a text span after span, at byte offsets.  Read from left to right with the
number of open parentheses as the only state, its result is simple: a character is in uppercase if
and only if some parenthesis is open (`uppercaseFrom`).

* `markVariables_eq_ok_iff` : what `markVariables` gives is the result of one pass.
* `forall₂_sameShape_uppercaseFrom` : the pass keeps the widths of the characters and the
  parentheses.

The proof follows the set of offsets that the spans cover.  Uppercasing one more span adds the span
to this set (`uppercaseSpan_upperWhere`), since characters keep their widths and an uppercase form
does not change any more.  In the end an offset is covered if and only if the depth is positive
there (`upperWhere_covered`).
-/

namespace MinedRules

/-! ### Uppercase at a set of offsets -/

/-- The text, which begins at byte offset `o`, with the characters at the offsets in `P` in
uppercase. -/
def upperWhere (P : Nat → Bool) : Nat → Text → Text
  | _, [] => []
  | o, c :: t => (if P o then uppercase c else c) :: upperWhere P (o + c.utf8Size) t

variable {P Q : Nat → Bool}

theorem upperWhere_append (P : Nat → Bool) (o : Nat) (a b : Text) :
    upperWhere P o (a ++ b) = upperWhere P o a ++ upperWhere P (o + Text.byteLength a) b := by
  induction a generalizing o with
  | nil => simp [upperWhere]
  | cons c a ih => simp [upperWhere, ih, Nat.add_assoc]

theorem byteLength_upperWhere (P : Nat → Bool) (o : Nat) (t : Text) :
    Text.byteLength (upperWhere P o t) = Text.byteLength t := by
  induction t generalizing o with
  | nil => rfl
  | cons c t ih =>
    simp only [upperWhere, Text.byteLength_cons, ih]
    split
    · rw [utf8Size_uppercase]
    · rfl

theorem upperWhere_congr {o : Nat} {t : Text}
    (h : ∀ i, o ≤ i → i < o + Text.byteLength t → P i = Q i) :
    upperWhere P o t = upperWhere Q o t := by
  induction t generalizing o with
  | nil => rfl
  | cons c t ih =>
    have hc := c.utf8Size_pos
    simp only [Text.byteLength_cons] at h
    rw [upperWhere, upperWhere, h o (Nat.le_refl _) (by omega),
      ih fun i h1 h2 => h i (by omega) (by omega)]

theorem upperWhere_of_false {o : Nat} {t : Text} (h : ∀ i, o ≤ i → P i = false) :
    upperWhere P o t = t := by
  induction t generalizing o with
  | nil => rfl
  | cons c t ih =>
    rw [upperWhere, h o (Nat.le_refl _), ih fun i hi => h i (by omega)]
    rfl

theorem map_uppercase_upperWhere (P : Nat → Bool) (o : Nat) (t : Text) :
    (upperWhere P o t).map uppercase = upperWhere (fun _ => true) o t := by
  induction t generalizing o with
  | nil => rfl
  | cons c t ih =>
    simp only [upperWhere, List.map_cons, ih, if_true]
    split
    · rw [uppercase_uppercase]
    · rfl

/-! ### Spans -/

/-- The bytes of a span begin and end between characters of the text. -/
def IsSpan (t : Text) (span : Nat × Nat) : Prop :=
  ∃ a b c, t = a ++ (b ++ c) ∧ span.1 = Text.byteLength a ∧
    span.2 + 1 = Text.byteLength a + Text.byteLength b

/-- Does one of the spans hold the offset? -/
def covered (spans : List (Nat × Nat)) (o : Nat) : Bool := spans.any fun p => p.1 ≤ o && o ≤ p.2

theorem span?_append {a b c : Text} {first last : Nat} (h1 : first = Text.byteLength a)
    (h2 : last + 1 = Text.byteLength a + Text.byteLength b) :
    Text.span? first last (a ++ (b ++ c)) = some (a, b, c) := by
  have h3 : last + 1 - first = Text.byteLength b := by omega
  rw [Text.span?, h1, Text.cutAtByte?_byteLength]
  simp only
  rw [← h1, h3, Text.cutAtByte?_byteLength]

/-- Uppercasing a span adds its offsets to those that are in uppercase already. -/
theorem uppercaseSpan_upperWhere {t : Text} {span : Nat × Nat} (h : IsSpan t span) :
    uppercaseSpan (upperWhere P 0 t) span =
      upperWhere (fun o => P o || (span.1 ≤ o && o ≤ span.2)) 0 t := by
  obtain ⟨a, b, c, rfl, h1, h2⟩ := h
  simp only [upperWhere_append, Nat.zero_add]
  rw [uppercaseSpan, span?_append (by rw [h1, byteLength_upperWhere])
    (by rw [h2, byteLength_upperWhere, byteLength_upperWhere])]
  simp only [map_uppercase_upperWhere, List.append_assoc]
  -- the three parts lie before, in and after the span
  congr 1
  · refine upperWhere_congr fun i _ hi => ?_
    have : ¬ span.1 ≤ i := by omega
    simp [this]
  · congr 1
    · refine upperWhere_congr fun i hi1 hi2 => ?_
      have h3 : span.1 ≤ i := by omega
      have h4 : i ≤ span.2 := by omega
      simp [h3, h4]
    · refine upperWhere_congr fun i hi _ => ?_
      have : ¬ i ≤ span.2 := by omega
      simp [this]

theorem foldl_uppercaseSpan {t : Text} {spans : List (Nat × Nat)} (h : ∀ p ∈ spans, IsSpan t p) :
    spans.foldl uppercaseSpan (upperWhere P 0 t) =
      upperWhere (fun o => P o || covered spans o) 0 t := by
  induction spans generalizing P with
  | nil => simp [covered]
  | cons p spans ih =>
    rw [List.foldl_cons, uppercaseSpan_upperWhere (h p List.mem_cons_self),
      ih fun q hq => h q (List.mem_cons_of_mem _ hq)]
    simp only [covered, List.any_cons, Bool.or_assoc]

/-! ### The pairs of a text -/

section Pairs

variable {position : Nat} {opened : List Nat} {t : Text} {pairs : List (Nat × Nat)}

theorem isSpan_of_mem_parenPairs (h : parenPairs t = .ok pairs) : ∀ p ∈ pairs, IsSpan t p := by
  intro p hp
  obtain ⟨a, b, c, rfl, h1, h2, -⟩ := matched_of_mem_parenPairs h p hp
  have hclose : ')'.utf8Size = 1 := rfl
  refine ⟨a, '(' :: b ++ [')'], c, by simp, h1, ?_⟩
  simp only [h2, Text.byteLength_append, Text.byteLength_cons, Text.byteLength_nil, hclose]
  omega

/-- The offset before a text is covered by a pair that ends in it if and only if a parenthesis is
open there. -/
theorem covered_before {before : Nat} (h : parenPairsFrom position opened t = .ok pairs)
    (hbefore : before < position) (hopened : ∀ s ∈ opened, s < before) :
    covered pairs before = !opened.isEmpty := by
  cases opened with
  | nil =>
    simp only [covered, List.isEmpty_nil, Bool.not_true, List.any_eq_false, Bool.and_eq_true,
      decide_eq_true_eq]
    intro p hp hle
    rcases start_of_mem_parenPairsFrom h p hp with hs | hs
    · simp at hs
    · omega
  | cons s opened =>
    obtain ⟨e, he, hmem⟩ := exists_end_of_mem_opened h s List.mem_cons_self
    have hs := hopened s List.mem_cons_self
    simp only [covered, List.isEmpty_cons, Bool.not_false, List.any_eq_true, Bool.and_eq_true,
      decide_eq_true_eq]
    exact ⟨(s, e), hmem, by omega, by omega⟩

/-! ### One pass -/

/-- The text with every character inside a parenthesis in uppercase, where `depth` parentheses are
open before it. -/
def uppercaseFrom : Nat → Text → Text
  | _, [] => []
  | depth, c :: t =>
    if c = '(' then c :: uppercaseFrom (depth + 1) t
    else if c = ')' then c :: uppercaseFrom (depth - 1) t
    else (if depth = 0 then c else uppercase c) :: uppercaseFrom depth t

/-- After a text that closes what it opens, and `depth` more, the pass goes on at the depth around
these. -/
theorem uppercaseFrom_append {depth outer : Nat} {a b : Text} (ha : ClosesFrom depth a) :
    uppercaseFrom (depth + outer) (a ++ b) =
      uppercaseFrom (depth + outer) a ++ uppercaseFrom outer b := by
  induction a generalizing depth with
  | nil =>
    rw [ClosesFrom] at ha
    simp [ha, uppercaseFrom]
  | cons c a ih =>
    rw [ClosesFrom] at ha
    rw [List.cons_append, uppercaseFrom, uppercaseFrom]
    split
    · next h1 =>
      rw [if_pos h1] at ha
      rw [Nat.add_right_comm, ih ha, List.cons_append]
    · next h1 =>
      rw [if_neg h1] at ha
      split
      · next h2 =>
        rw [if_pos h2] at ha
        rw [Nat.sub_add_comm ha.1, ih ha.2, List.cons_append]
      · next h2 =>
        rw [if_neg h2] at ha
        rw [ih ha, List.cons_append]

theorem uppercaseFrom_of_no_paren {depth : Nat} {t : Text} (h : ∀ c ∈ t, c ≠ '(' ∧ c ≠ ')') :
    uppercaseFrom depth t = if depth = 0 then t else t.map uppercase := by
  induction t with
  | nil => simp [uppercaseFrom]
  | cons c t ih =>
    obtain ⟨h1, h2⟩ := h c List.mem_cons_self
    rw [uppercaseFrom, if_neg h1, if_neg h2, ih fun d hd => h d (List.mem_cons_of_mem _ hd)]
    split <;> rfl

theorem uppercaseFrom_append_singleton {c : Char} (hc : isSign c = true) (depth : Nat) (t : Text) :
    uppercaseFrom depth (t ++ [c]) = uppercaseFrom depth t ++ [c] := by
  induction t generalizing depth with
  | nil =>
    have hup := uppercase_of_isSign hc
    simp [uppercaseFrom, hup]
  | cons d t ih =>
    rw [List.cons_append, uppercaseFrom, uppercaseFrom]
    split
    · rw [ih, List.cons_append]
    · split <;> rw [ih, List.cons_append]

/-- The second character is as wide as the first one, and the same parenthesis if that is one. -/
def SameShape (c d : Char) : Prop :=
  d.utf8Size = c.utf8Size ∧ (d = '(' ↔ c = '(') ∧ (d = ')' ↔ c = ')')

theorem sameShape_refl (c : Char) : SameShape c c := ⟨rfl, .rfl, .rfl⟩

theorem sameShape_uppercase (c : Char) : SameShape c (uppercase c) :=
  ⟨utf8Size_uppercase c, uppercase_eq_iff (by decide), uppercase_eq_iff (by decide)⟩

/-- What relates a character to itself and to its uppercase form relates a text to its pass. -/
theorem forall₂_uppercaseFrom {R : Char → Char → Prop} (hself : ∀ c, R c c)
    (hupper : ∀ c, R c (uppercase c)) (depth : Nat) (t : Text) :
    List.Forall₂ R t (uppercaseFrom depth t) := by
  induction t generalizing depth with
  | nil => exact .nil
  | cons c t ih =>
    rw [uppercaseFrom]
    split
    · exact .cons (hself c) (ih _)
    · split
      · exact .cons (hself c) (ih _)
      · refine .cons ?_ (ih _)
        split
        · exact hself c
        · exact hupper c

theorem forall₂_sameShape_uppercaseFrom (depth : Nat) (t : Text) :
    List.Forall₂ SameShape t (uppercaseFrom depth t) :=
  forall₂_uppercaseFrom sameShape_refl sameShape_uppercase depth t

theorem filter_isParen_of_sameShape {m : Text} (h : List.Forall₂ SameShape t m) :
    m.filter isParen = t.filter isParen := by
  induction h with
  | nil => rfl
  | @cons c d t m hcd _ ih =>
    obtain ⟨-, hopen, hclose⟩ := hcd
    by_cases h1 : c = '('
    · rw [h1, hopen.2 h1, List.filter_cons, List.filter_cons, ih]
    · by_cases h2 : c = ')'
      · rw [h2, hclose.2 h2, List.filter_cons, List.filter_cons, ih]
      · have hc : isParen c = false := by simp [isParen, h1, h2]
        have hd : isParen d = false := by simp [isParen, hopen, hclose, h1, h2]
        rw [List.filter_cons_of_neg (by simp [hd]), List.filter_cons_of_neg (by simp [hc]), ih]

theorem filter_isParen_uppercaseFrom (depth : Nat) (t : Text) :
    (uppercaseFrom depth t).filter isParen = t.filter isParen :=
  filter_isParen_of_sameShape (forall₂_sameShape_uppercaseFrom depth t)

/-- **An offset is covered by a pair if and only if a parenthesis is open there.** -/
theorem upperWhere_covered (h : parenPairsFrom position opened t = .ok pairs)
    (hopened : ∀ s ∈ opened, s < position) :
    upperWhere (covered pairs) position t = uppercaseFrom opened.length t := by
  induction t generalizing position opened pairs with
  | nil => rfl
  | cons c t ih =>
    have hc := c.utf8Size_pos
    have hlater : ∀ s ∈ opened, s < position + c.utf8Size := fun s hs => by
      have := hopened s hs
      omega
    rw [upperWhere, uppercaseFrom]
    rcases parenPairsFrom_cons_eq_ok h with
      ⟨rfl, ht⟩ | ⟨rfl, s, outer, later, rfl, rfl, ht⟩ | ⟨h1, h2, ht⟩
    · rw [if_pos rfl, uppercase_of_isSign (by decide), ite_self]
      congr 1
      refine ih ht fun s hs => ?_
      rcases List.mem_cons.1 hs with rfl | hs
      · omega
      · exact hlater s hs
    · rw [if_neg (show ')' ≠ '(' by decide), if_pos rfl, uppercase_of_isSign (by decide), ite_self]
      congr 1
      -- the pair that ends here does not reach the rest of the text
      have hpast : upperWhere (covered ((s, position) :: later)) (position + ')'.utf8Size) t =
          upperWhere (covered later) (position + ')'.utf8Size) t := by
        refine upperWhere_congr fun i hi _ => ?_
        have : ¬ i ≤ position := by omega
        simp [covered, this]
      rw [hpast]
      exact ih ht fun s' hs' => hlater s' (List.mem_cons_of_mem _ hs')
    · rw [if_neg h1, if_neg h2, ih ht hlater]
      congr 1
      -- a pair that holds this offset begins before it and ends behind it
      rw [covered_before ht (by omega) hopened]
      cases opened <;> simp

end Pairs

/-- **Marking the variables is one pass with a depth counter.** -/
theorem markVariables_eq_ok_iff {t m : Text} :
    markVariables t = .ok m ↔ Balanced t ∧ m = uppercaseFrom 0 t := by
  rw [markVariables, ← parenPairs_isOk_iff]
  cases h : parenPairs t with
  | error e => simp
  | ok pairs =>
    -- span after span first becomes one pass over offsets, and then one with a depth
    have hmark : pairs.foldl uppercaseSpan t = uppercaseFrom 0 t := by
      have hfold := foldl_uppercaseSpan (P := fun _ => false) (isSpan_of_mem_parenPairs h)
      rw [upperWhere_of_false fun _ _ => rfl] at hfold
      simp only [Bool.false_or] at hfold
      rw [hfold]
      exact upperWhere_covered h (by simp)
    simp only [hmark, Except.ok.injEq, exists_eq', true_and]
    exact eq_comm

end MinedRules
