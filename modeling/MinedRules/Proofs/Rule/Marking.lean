import MinedRules.Proofs.Rule.Depth

/-!
# Marked texts

`markVariables` puts span after span into uppercase, so a character inside of several spans is mapped
several times, in a text that is changed all the while.  What comes out is nevertheless a single pass
with a depth counter (`uppercaseFrom`), and this module says what the pass does to each character and
what it leaves as it was.

* `getElem?_uppercaseFrom` : a character changes if and only if a parenthesis is open there.
* `getElem?_uppercaseFrom_inside` : the same, said with the matched pairs.
* `parenPairsFrom_of_sameShape` : the pairs stay where they are.
* `uppercaseFrom_uppercaseFrom` : a second pass changes nothing.
* `suffix_compact_uppercaseFrom_iff` : the signs at the end of a text stay.
* `markVariables_onePass` : all of this for the marked text.
-/

namespace MinedRules

variable {a b t : Text} {c : Char} {pairs : List (Nat × Nat)}

/-! ### One character of a pass -/

theorem uppercaseFrom_open (depth : Nat) (t : Text) :
    uppercaseFrom depth ('(' :: t) = '(' :: uppercaseFrom (depth + 1) t := rfl

theorem uppercaseFrom_close (depth : Nat) (t : Text) :
    uppercaseFrom depth (')' :: t) = ')' :: uppercaseFrom (depth - 1) t := rfl

theorem uppercaseFrom_of_not_paren (h1 : c ≠ '(') (h2 : c ≠ ')') (depth : Nat) (t : Text) :
    uppercaseFrom depth (c :: t) =
      (if depth = 0 then c else uppercase c) :: uppercaseFrom depth t := by
  rw [uppercaseFrom, if_neg h1, if_neg h2]

/-! ### What stays as it was -/

theorem byteLength_of_sameShape {m : Text} (h : List.Forall₂ SameShape t m) :
    Text.byteLength m = Text.byteLength t := by
  induction h with
  | nil => rfl
  | cons hcd _ ih => rw [Text.byteLength_cons, Text.byteLength_cons, ih, hcd.1]

/-- **The pairs stay where they are**: they depend on the widths of the characters and on which of
these are parentheses. -/
theorem parenPairsFrom_of_sameShape {m : Text} (h : List.Forall₂ SameShape t m) (position : Nat)
    (opened : List Nat) : parenPairsFrom position opened m = parenPairsFrom position opened t := by
  induction h generalizing position opened with
  | nil => rfl
  | @cons c d t m hcd _ ih =>
    obtain ⟨hwidth, hopen, hclose⟩ := hcd
    by_cases h1 : c = '('
    · rw [h1, hopen.2 h1, parenPairsFrom_open, parenPairsFrom_open, ih]
    · by_cases h2 : c = ')'
      · rw [h2, hclose.2 h2]
        cases opened with
        | nil => rw [parenPairsFrom_close_nil, parenPairsFrom_close_nil]
        | cons s outer => rw [parenPairsFrom_close, parenPairsFrom_close, ih]
      · rw [parenPairsFrom_of_not_paren (mt hopen.1 h1) (mt hclose.1 h2),
          parenPairsFrom_of_not_paren h1 h2, hwidth, ih]

theorem parenPairs_uppercaseFrom (t : Text) : parenPairs (uppercaseFrom 0 t) = parenPairs t :=
  parenPairsFrom_of_sameShape (forall₂_sameShape_uppercaseFrom 0 t) 0 []

theorem uppercaseFrom_uppercaseFrom (depth : Nat) (t : Text) :
    uppercaseFrom depth (uppercaseFrom depth t) = uppercaseFrom depth t := by
  induction t generalizing depth with
  | nil => rfl
  | cons c t ih =>
    by_cases h1 : c = '('
    · rw [h1, uppercaseFrom_open, uppercaseFrom_open, ih]
    · by_cases h2 : c = ')'
      · rw [h2, uppercaseFrom_close, uppercaseFrom_close, ih]
      · obtain ⟨-, hopen, hclose⟩ := sameShape_uppercase c
        rw [uppercaseFrom_of_not_paren h1 h2]
        by_cases hd : depth = 0
        · rw [if_pos hd, uppercaseFrom_of_not_paren h1 h2, if_pos hd, ih]
        · rw [if_neg hd, uppercaseFrom_of_not_paren (mt hopen.1 h1) (mt hclose.1 h2), if_neg hd, ih,
            uppercase_uppercase]

/-! ### The ends of texts -/

/-- The two are the same character, or neither is white space or comes before the letters. -/
def Alike (c d : Char) : Prop :=
  isBlank d = isBlank c ∧ ∀ x : Char, x.toNat < 0x41 → (d = x ↔ c = x)

theorem forall₂_alike_uppercaseFrom (depth : Nat) (t : Text) :
    List.Forall₂ Alike t (uppercaseFrom depth t) :=
  forall₂_uppercaseFrom (fun _ => ⟨rfl, fun _ _ => .rfl⟩)
    (fun c => ⟨isBlank_uppercase c, fun _ hx => uppercase_eq_iff_of_lt hx⟩) depth t

theorem eq_iff_of_alike {m s : Text} (h : List.Forall₂ Alike t m) (hs : ∀ x ∈ s, x.toNat < 0x41) :
    s = m ↔ s = t := by
  induction h generalizing s with
  | nil => rfl
  | @cons c d t m hcd _ ih =>
    cases s with
    | nil => simp
    | cons x s =>
      have hx := hcd.2 x (hs x List.mem_cons_self)
      rw [List.cons.injEq, List.cons.injEq, ih fun y hy => hs y (List.mem_cons_of_mem _ hy),
        eq_comm (a := x), eq_comm (a := x), hx]

theorem suffix_iff_of_alike {m s : Text} (h : List.Forall₂ Alike t m)
    (hs : ∀ x ∈ s, x.toNat < 0x41) : s <:+ m ↔ s <:+ t := by
  induction h with
  | nil => rfl
  | cons hcd h ih => rw [List.suffix_cons_iff, List.suffix_cons_iff, ih,
      eq_iff_of_alike (.cons hcd h) hs]

theorem suffix_compact_uppercaseFrom_iff {s : Text} (hs : ∀ x ∈ s, x.toNat < 0x41) (depth : Nat)
    (t : Text) : s <:+ Text.compact (uppercaseFrom depth t) ↔ s <:+ Text.compact t := by
  refine suffix_iff_of_alike (List.rel_filter ?_ (forall₂_alike_uppercaseFrom depth t)) hs
  intro c d hcd
  simp [hcd.1]

theorem isFact_uppercaseFrom (depth : Nat) (t : Text) :
    isFact (uppercaseFrom depth t) = isFact t := by
  rw [Bool.eq_iff_iff, isFact, isFact, List.isSuffixOf_iff_suffix, List.isSuffixOf_iff_suffix]
  exact suffix_compact_uppercaseFrom_iff (by simp [neck]) depth t

/-! ### What becomes of each character -/

/-- A character changes if and only if a parenthesis is open there. -/
theorem getElem?_uppercaseFrom {depth : Nat} (h : ClosesFrom depth (a ++ c :: b)) :
    (uppercaseFrom depth (a ++ c :: b))[a.length]? =
      some (if depth + a.count '(' = a.count ')' then c else uppercase c) := by
  induction a generalizing depth with
  | nil =>
    by_cases h1 : c = '('
    · subst h1
      simp [uppercaseFrom, uppercase_of_isSign (c := '(') (by decide)]
    · by_cases h2 : c = ')'
      · subst h2
        simp [uppercaseFrom, uppercase_of_isSign (c := ')') (by decide)]
      · rw [List.nil_append, uppercaseFrom, if_neg h1, if_neg h2]
        rfl
  | cons d a ih =>
    rw [List.cons_append, ClosesFrom] at h
    rw [List.cons_append, List.length_cons, uppercaseFrom]
    by_cases h1 : d = '('
    · subst h1
      rw [if_pos rfl] at h
      rw [if_pos rfl, List.getElem?_cons_succ, ih h, List.count_cons_self,
        List.count_cons_of_ne (show '(' ≠ ')' by decide), Nat.add_assoc, Nat.add_comm 1]
    · rw [if_neg h1] at h
      rw [if_neg h1]
      by_cases h2 : d = ')'
      · subst h2
        rw [if_pos rfl] at h
        obtain ⟨hd, h⟩ := h
        have hdepth : depth - 1 + a.count '(' = a.count ')' ↔
            depth + a.count '(' = a.count ')' + 1 := by omega
        rw [if_pos rfl, List.getElem?_cons_succ, ih h, List.count_cons_self,
          List.count_cons_of_ne (show ')' ≠ '(' by decide)]
        simp only [hdepth]
      · rw [if_neg h2] at h
        rw [if_neg h2, List.getElem?_cons_succ, ih h, List.count_cons_of_ne h1,
          List.count_cons_of_ne h2]

/-- Does the offset lie strictly between the ends of one of the pairs? -/
def isInside (pairs : List (Nat × Nat)) (o : Nat) : Bool := pairs.any fun p => p.1 < o && o < p.2

theorem getElem?_upperWhere (P : Nat → Bool) (o : Nat) (a b : Text) (c : Char) :
    (upperWhere P o (a ++ c :: b))[a.length]? =
      some (if P (o + Text.byteLength a) then uppercase c else c) := by
  induction a generalizing o with
  | nil => rfl
  | cons d a ih =>
    rw [List.cons_append, upperWhere, List.length_cons, List.getElem?_cons_succ, ih,
      Text.byteLength_cons, Nat.add_assoc]

/-- What a pair covers beyond its inside are its own parentheses. -/
theorem inside_or_of_covered (h : parenPairs (a ++ c :: b) = .ok pairs)
    (hcovered : covered pairs (Text.byteLength a) = true) :
    isInside pairs (Text.byteLength a) = true ∨ c = '(' ∨ c = ')' := by
  obtain ⟨p, hp, hle⟩ := List.any_eq_true.1 hcovered
  have hmatched := matched_of_mem_parenPairs h p hp
  simp only [Bool.and_eq_true, decide_eq_true_eq] at hle
  by_cases h1 : p.1 = Text.byteLength a
  · exact .inr (.inl ((h1 ▸ hmatched).eq_open rfl))
  · by_cases h2 : p.2 = Text.byteLength a
    · exact .inr (.inr ((h2 ▸ hmatched).eq_close rfl))
    · refine .inl (List.any_eq_true.2 ⟨p, hp, ?_⟩)
      simp only [Bool.and_eq_true, decide_eq_true_eq]
      omega

theorem covered_of_inside {o : Nat} (h : isInside pairs o = true) : covered pairs o = true := by
  obtain ⟨p, hp, hlt⟩ := List.any_eq_true.1 h
  refine List.any_eq_true.2 ⟨p, hp, ?_⟩
  simp only [Bool.and_eq_true, decide_eq_true_eq] at hlt ⊢
  omega

theorem getElem?_uppercaseFrom_inside (h : parenPairs (a ++ c :: b) = .ok pairs) :
    (uppercaseFrom 0 (a ++ c :: b))[a.length]? =
      some (if isInside pairs (Text.byteLength a) then uppercase c else c) := by
  have hpass := upperWhere_covered h (by simp)
  rw [List.length_nil] at hpass
  rw [← hpass, getElem?_upperWhere, Nat.zero_add]
  by_cases hcovered : covered pairs (Text.byteLength a) = true
  · rcases inside_or_of_covered h hcovered with hin | rfl | rfl
    · rw [if_pos hcovered, if_pos hin]
    · rw [uppercase_of_isSign (by decide), ite_self, ite_self]
    · rw [uppercase_of_isSign (by decide), ite_self, ite_self]
  · rw [if_neg hcovered, if_neg fun hin => hcovered (covered_of_inside hin)]

/-! ### Marking -/

/-- The text with what lies inside of its pairs in uppercase and all else as it is.  It has the size
of the text and the same pairs, and nothing is left to mark in it. -/
structure IsMarked (t : Text) (pairs : List (Nat × Nat)) (marked : Text) : Prop where
  inside : ∀ a c b, t = a ++ c :: b →
    marked[a.length]? = some (if isInside pairs (Text.byteLength a) then uppercase c else c)
  outside : ∀ a c b, t = a ++ c :: b → Text.depth a = 0 → marked[a.length]? = some c
  length : marked.length = t.length
  byteLength : Text.byteLength marked = Text.byteLength t
  pairs : parenPairs marked = .ok pairs
  again : markVariables marked = .ok marked

theorem isMarked_uppercaseFrom (h : parenPairs t = .ok pairs) :
    IsMarked t pairs (uppercaseFrom 0 t) where
  inside := by
    rintro a c b rfl
    exact getElem?_uppercaseFrom_inside h
  outside := by
    rintro a c b rfl hdepth
    have hcloses := closesFrom_zero_iff.2 (parenPairs_isOk_iff.1 ⟨_, h⟩)
    have hcount : 0 + a.count '(' = a.count ')' := by
      simp only [Text.depth] at hdepth
      omega
    rw [getElem?_uppercaseFrom hcloses, if_pos hcount]
  length := (forall₂_sameShape_uppercaseFrom 0 t).length_eq.symm
  byteLength := byteLength_of_sameShape (forall₂_sameShape_uppercaseFrom 0 t)
  pairs := (parenPairs_uppercaseFrom t).trans h
  again := by
    have hpairs := (parenPairs_uppercaseFrom t).trans h
    refine markVariables_eq_ok_iff.2 ⟨parenPairs_isOk_iff.1 ⟨_, hpairs⟩, ?_⟩
    exact (uppercaseFrom_uppercaseFrom 0 t).symm

theorem markVariables_eq (t : Text) :
    markVariables t = (parenPairs t).map fun _ => uppercaseFrom 0 t := by
  cases h : parenPairs t with
  | error e => rw [markVariables, h]; rfl
  | ok pairs => exact markVariables_eq_ok_iff.2 ⟨parenPairs_isOk_iff.1 ⟨_, h⟩, rfl⟩

/-- **Marking is one pass with a depth counter**, if the parentheses can be matched, and it fails like
matching them otherwise. -/
theorem markVariables_onePass (t : Text) :
    markVariables t = (parenPairs t).map (fun _ => uppercaseFrom 0 t) ∧
      ∀ pairs, parenPairs t = .ok pairs → IsMarked t pairs (uppercaseFrom 0 t) :=
  ⟨markVariables_eq t, fun _ h => isMarked_uppercaseFrom h⟩

/-- `ß` has no uppercase form of its width, and `ñ` in two pairs is mapped twice. -/
theorem markVariables_onePass_nested :
    let t := "straße(é,ß,f(ñ))".toList
    let pairs := [(15, 18), (7, 19)]
    let marked := "straße(É,ß,F(Ñ))".toList
    parenPairs t = .ok pairs ∧ markVariables t = .ok marked ∧ IsMarked t pairs marked := by
  intro t pairs marked
  have h : parenPairs t = .ok pairs := rfl
  have hmarked : uppercaseFrom 0 t = marked := by decide +kernel
  have hpass := markVariables_onePass t
  rw [h, hmarked] at hpass
  exact ⟨h, hpass.1, hpass.2 pairs rfl⟩

end MinedRules
