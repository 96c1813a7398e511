import MinedRules.Proofs.Rule.Depth
import MinedRules.Proofs.Rule.Exchange
import MinedRules.Proofs.Rule.Stages
import Mathlib.Algebra.Order.Group.Multiset

/-!
# What resolving the markers conserves

Resolving the markers of a clause moves text and drops the markers, nothing else.  For a clause that
keeps its type annotations and a marker without parentheses (`canonicalize_conserves`),

* the parentheses of the clause stay the same sequence, so it stays balanced;
* the characters other than white space are those of the marked clause less the markers in its body;
* the head is that of the marked clause, the neck stands after it, and a full stop ends the clause.

A part of an argument list that is exchanged can hold opening parentheses, which need not be closed
in it, but no closing one, since the list ends at the first of these.  So the exchange permutes
opening parentheses only, and what is conserved of every piece is conserved of their concatenation.
-/

namespace MinedRules

/-! ### One piece -/

theorem filter_isParen_of_not_mem {t : Text} (h : ')' ∉ t) :
    t.filter isParen = List.replicate (t.count '(') '(' := by
  rw [← List.filter_eq]
  refine List.filter_congr fun c hc => ?_
  have hne : c ≠ ')' := fun heq => h (heq ▸ hc)
  by_cases h1 : c = '(' <;> simp [isParen, h1, hne]

theorem isParen_of_isBlank (c : Char) (hc : isBlank c = true) : isParen c = false := by
  have h1 : c ≠ '(' := fun h => by simp [h, isBlank] at hc
  have h2 : c ≠ ')' := fun h => by simp [h, isBlank] at hc
  simp [isParen, h1, h2]

variable {marker piece name first second rest swapped : Text}

theorem filter_isParen_exchanged (h : IsPair piece name first second rest) :
    (exchanged name first second rest).filter isParen = piece.filter isParen := by
  have hopen : isParen '(' = true := rfl
  have hclose : isParen ')' = true := rfl
  have hcomma : isParen ',' = false := rfl
  -- both parts hold opening parentheses only, so their order does not show
  have hswap : (Text.trim second).filter isParen ++ (Text.trim first).filter isParen =
      first.filter isParen ++ second.filter isParen := by
    rw [Text.filter_trim isParen_of_isBlank, Text.filter_trim isParen_of_isBlank,
      filter_isParen_of_not_mem h.first.1, filter_isParen_of_not_mem h.second.1,
      List.replicate_append_replicate, List.replicate_append_replicate, Nat.add_comm]
  simp only [exchanged, h.text, List.filter_append, List.filter_cons, hopen, hclose, hcomma,
    if_true, Bool.false_eq_true, if_false, List.append_assoc, List.cons_append]
  rw [← List.append_assoc ((Text.trim second).filter isParen), hswap, List.append_assoc]

theorem count_exchanged {x : Char} (hx : isBlank x = false)
    (h : IsPair piece name first second rest) :
    (exchanged name first second rest).count x = piece.count x := by
  simp only [exchanged, h.text, List.count_append, List.count_cons, Text.count_trim hx]
  omega

/-! ### All pieces -/

variable {pieces swaps : List Text}

theorem filter_isParen_intercalate (hm : ∀ c ∈ marker, isParen c = false) (piece : Text)
    (pieces : List Text) : (marker.intercalate (piece :: pieces)).filter isParen =
      piece.filter isParen ++ pieces.flatten.filter isParen := by
  have hnil : marker.filter isParen = [] := List.filter_eq_nil_iff.2 fun c hc => by simp [hm c hc]
  induction pieces generalizing piece with
  | nil => simp
  | cons p pieces ih =>
    rw [List.intercalate_cons_cons, List.filter_append, List.filter_append, ih, hnil,
      List.flatten_cons, List.filter_append, List.append_nil]

theorem count_intercalate (x : Char) (marker piece : Text) (pieces : List Text) :
    (marker.intercalate (piece :: pieces)).count x =
      piece.count x + pieces.flatten.count x + pieces.length * marker.count x := by
  induction pieces generalizing piece with
  | nil => simp
  | cons p pieces ih =>
    rw [List.intercalate_cons_cons, List.count_append, List.count_append, ih, List.flatten_cons,
      List.count_append, List.length_cons, Nat.succ_mul]
    omega

theorem filter_isParen_flatten_swaps
    (h : List.Forall₂ (fun p q => swapArguments marker p = .ok q) pieces swaps) :
    swaps.flatten.filter isParen = pieces.flatten.filter isParen := by
  induction h with
  | nil => rfl
  | cons hq _ ih =>
    obtain ⟨name, first, second, rest, hpair, rfl⟩ := swapArguments_eq_ok_iff.1 hq
    rw [List.flatten_cons, List.flatten_cons, List.filter_append, List.filter_append, ih,
      filter_isParen_exchanged hpair]

theorem count_flatten_swaps {x : Char} (hx : isBlank x = false)
    (h : List.Forall₂ (fun p q => swapArguments marker p = .ok q) pieces swaps) :
    swaps.flatten.count x = pieces.flatten.count x := by
  induction h with
  | nil => rfl
  | cons hq _ ih =>
    obtain ⟨name, first, second, rest, hpair, rfl⟩ := swapArguments_eq_ok_iff.1 hq
    rw [List.flatten_cons, List.flatten_cons, List.count_append, List.count_append, ih,
      count_exchanged hx hpair]

/-- The last piece keeps what follows its argument list, so pieces and swapped pieces have an ending in
common. -/
theorem exists_common_ending
    (h : List.Forall₂ (fun p q => swapArguments marker p = .ok q) pieces swaps) (hne : pieces ≠ []) :
    ∃ rest, ')' :: rest <:+ marker.intercalate pieces ∧ ')' :: rest <:+ swaps.flatten := by
  induction h with
  | nil => exact absurd rfl hne
  | @cons p q pieces swaps hq hall ih =>
    cases hall with
    | nil =>
      obtain ⟨name, first, second, rest, hpair, rfl⟩ := swapArguments_eq_ok_iff.1 hq
      rw [List.intercalate_singleton, List.flatten_singleton, hpair.text]
      exact ⟨rest, List.suffix_append _ _, List.suffix_append _ _⟩
    | @cons p' q' pieces swaps hq' hall =>
      obtain ⟨rest, hpieces, hswaps⟩ := ih (List.cons_ne_nil p' pieces)
      refine ⟨rest, ?_, ?_⟩
      · rw [List.intercalate_cons_cons]
        exact hpieces.trans (List.suffix_append _ _)
      · rw [List.flatten_cons]
        exact hswaps.trans (List.suffix_append _ _)

theorem exists_ending_flatten_swaps
    (h : List.Forall₂ (fun p q => swapArguments marker p = .ok q) pieces swaps) (piece : Text) :
    piece ++ swaps.flatten = marker.intercalate (piece :: pieces) ∨
      ∃ rest, ')' :: rest <:+ marker.intercalate (piece :: pieces) ∧
        ')' :: rest <:+ piece ++ swaps.flatten := by
  cases h with
  | nil => exact .inl (by simp)
  | @cons p q pieces swaps hq hall =>
    obtain ⟨rest, hpieces, hswaps⟩ := exists_common_ending (.cons hq hall) (List.cons_ne_nil p pieces)
    refine .inr ⟨rest, ?_, hswaps.trans (List.suffix_append _ _)⟩
    rw [List.intercalate_cons_cons]
    exact hpieces.trans (List.suffix_append _ _)

theorem getLast?_of_suffix {a b : Text} (h : a <:+ b) (hne : a ≠ []) : b.getLast? = a.getLast? := by
  obtain ⟨front, rfl⟩ := h
  rw [List.getLast?_append_of_ne_nil _ hne]

theorem getLast?_flatten_swaps
    (h : List.Forall₂ (fun p q => swapArguments marker p = .ok q) pieces swaps) (piece : Text) :
    (piece ++ swaps.flatten).getLast? = (marker.intercalate (piece :: pieces)).getLast? := by
  rcases exists_ending_flatten_swaps h piece with heq | ⟨rest, hbody, hswapped⟩
  · rw [heq]
  · rw [getLast?_of_suffix hbody (by simp), getLast?_of_suffix hswapped (by simp)]

/-! ### The clause -/

/-- The neck with its blanks, as a resolved clause has it. -/
def spacedNeck : Text := ' ' :: neck ++ [' ']

theorem infix_of_infix_concat {pattern a : Text} {c : Char} (hne : pattern ≠ [])
    (hlast : pattern.getLast? ≠ some c) (h : pattern <:+: a ++ [c]) : pattern <:+: a := by
  rcases List.infix_concat_iff.1 h with hsuf | hin
  · rcases List.suffix_concat_iff.1 hsuf with rfl | ⟨t, rfl, -⟩
    · exact absurd rfl hne
    · simp at hlast
  · exact hin

theorem clear_spacedNeck {head : Text} (h : ¬ neck <:+: head) : Text.Clear spacedNeck head := by
  intro hin
  have hdrop : head ++ spacedNeck.dropLast = head ++ [' '] ++ [':'] ++ ['-'] := by
    simp [spacedNeck, neck]
  rw [hdrop] at hin
  have hne : spacedNeck ≠ [] := by decide
  -- the pattern ends with a blank, so no occurrence ends in the colon and the hyphen
  have hin1 := infix_of_infix_concat hne (by decide) (infix_of_infix_concat hne (by decide) hin)
  rcases List.infix_concat_iff.1 hin1 with hsuf | hin2
  · rcases List.suffix_concat_iff.1 hsuf with h0 | ⟨t, ht, hsuf⟩
    · exact hne h0
    · obtain rfl : t = ' ' :: neck := (List.append_inj' ht.symm rfl).1
      exact h ((List.suffix_cons ' ' neck).trans hsuf).isInfix
  · exact h (List.IsInfix.trans ⟨[' '], [' '], rfl⟩ hin2)

theorem getLast?_marked {symbols : Connectives} {rule m : Text}
    (h : markVariables (symbols.toClause rule) = .ok m) : m.getLast? = some '.' := by
  rw [(markVariables_eq_ok_iff.1 h).2, Connectives.toClause,
    uppercaseFrom_append_singleton (by decide), List.getLast?_concat]

theorem balanced_marked {t m : Text} (h : markVariables t = .ok m) : Balanced m := by
  obtain ⟨hbal, hmarked⟩ := markVariables_eq_ok_iff.1 h
  rw [hmarked]
  exact (balanced_congr (filter_isParen_uppercaseFrom 0 t)).2 hbal

theorem getLast?_trimStart {t : Text} (h : t.getLast? = some '.') :
    (Text.trimStart t).getLast? = some '.' := by
  obtain ⟨u, rfl⟩ := List.getLast?_eq_some_iff.1 h
  rw [Text.trimStart, Text.dropWhile_append_singleton (by decide), List.getLast?_concat]

section Resolved

variable {m c head body : Text}

/-- The full stop of a clause belongs to its body, since a neck ends with a hyphen. -/
theorem getLast?_body (h : (head ++ neck ++ body).getLast? = some '.') : body.getLast? = some '.' := by
  have hne : body ≠ [] := by
    rintro rfl
    rw [List.append_nil, List.getLast?_append_of_ne_nil _ (by decide)] at h
    exact absurd h (by decide)
  rwa [List.getLast?_append_of_ne_nil _ hne] at h

/-- The clause `m` around its neck and its markers, and the resolved clause `c` from the same
parts. -/
theorem exists_pieces (hmarker : marker ≠ []) (h : resolveInverse marker m = .ok c) :
    ∃ head body piece pieces swaps, Text.cut? neck m = some (head, body) ∧
      m = head ++ neck ++ body ∧ marker.intercalate (piece :: pieces) = body ∧
      Text.occurrences marker body = pieces.length ∧
      List.Forall₂ (fun p q => swapArguments marker p = .ok q) pieces swaps ∧
      c = Text.trimEnd head ++ spacedNeck ++ Text.trimStart (piece ++ swaps.flatten) := by
  obtain ⟨head, body, piece, pieces, swaps, hcut, hsplit, hall, rfl⟩ :=
    resolveInverse_eq_ok_iff.1 h
  have hlength := Text.length_split hmarker body
  rw [hsplit, List.length_cons] at hlength
  refine ⟨head, body, piece, pieces, swaps, hcut, Text.cut?_eq_some hcut, ?_, by omega, hall, ?_⟩
  · rw [← hsplit, Text.join_split hmarker]
  · simp [spacedNeck]

theorem filter_isParen_resolveInverse (hmarker : marker ≠ [])
    (hparens : ∀ x ∈ marker, isParen x = false) (h : resolveInverse marker m = .ok c) :
    c.filter isParen = m.filter isParen := by
  obtain ⟨head, body, piece, pieces, swaps, -, rfl, rfl, -, hall, rfl⟩ := exists_pieces hmarker h
  have hneck : neck.filter isParen = [] := rfl
  have hspaced : spacedNeck.filter isParen = [] := rfl
  simp only [List.filter_append, Text.filter_trimEnd isParen_of_isBlank,
    Text.filter_trimStart isParen_of_isBlank, hneck, hspaced, filter_isParen_flatten_swaps hall,
    filter_isParen_intercalate hparens]

theorem count_resolveInverse (hmarker : marker ≠ []) (h : resolveInverse marker m = .ok c)
    (hcut : Text.cut? neck m = some (head, body)) {x : Char} (hx : isBlank x = false) :
    c.count x + Text.occurrences marker body * marker.count x = m.count x := by
  obtain ⟨head', body', piece, pieces, swaps, hcut', rfl, hbody, hcount, hall, rfl⟩ :=
    exists_pieces hmarker h
  obtain ⟨rfl, rfl⟩ := Prod.mk.inj (Option.some.inj (hcut'.symm.trans hcut))
  have hspaced : spacedNeck.count x = neck.count x := by
    have hspace : ' ' ≠ x := fun h => by simp [← h, isBlank] at hx
    simp [spacedNeck, List.count_cons_of_ne hspace]
  rw [hcount, ← hbody]
  simp only [List.count_append, Text.count_trimEnd hx, Text.count_trimStart hx, hspaced,
    count_flatten_swaps hx hall, count_intercalate]
  omega

theorem coe_compact_resolveInverse (hmarker : marker ≠ []) (h : resolveInverse marker m = .ok c)
    (hcut : Text.cut? neck m = some (head, body)) :
    (Text.compact c : Multiset Char) +
        Text.occurrences marker body • (Text.compact marker : Multiset Char) = Text.compact m := by
  -- multisets are equal if every character has the same count in them
  have hcompact : ∀ (x : Char) (t : Text),
      (Text.compact t).count x = if isBlank x then 0 else t.count x := by
    intro x t
    cases hx : isBlank x with
    | true =>
      rw [if_pos rfl, List.count_eq_zero, Text.compact, List.mem_filter]
      simp [hx]
    | false =>
      rw [Text.compact, List.count_filter (by simp [hx])]
      rfl
  ext x
  rw [Multiset.count_add, Multiset.count_nsmul, Multiset.coe_count, Multiset.coe_count,
    Multiset.coe_count, hcompact, hcompact, hcompact]
  cases hx : isBlank x with
  | true => rfl
  | false => exact count_resolveInverse hmarker h hcut hx

theorem cut?_spacedNeck_resolveInverse (hmarker : marker ≠ [])
    (h : resolveInverse marker m = .ok c) (hcut : Text.cut? neck m = some (head, body)) :
    ∃ tail, Text.cut? spacedNeck c = some (Text.trimEnd head, tail) := by
  obtain ⟨head', body', piece, pieces, swaps, hcut', -, -, -, -, rfl⟩ := exists_pieces hmarker h
  obtain ⟨rfl, rfl⟩ := Prod.mk.inj (Option.some.inj (hcut'.symm.trans hcut))
  obtain ⟨-, hclear⟩ := (Text.cut?_eq_some_iff (by decide)).1 hcut
  refine ⟨_, Text.cut?_append (by decide) (clear_spacedNeck fun hin => hclear ?_)⟩
  have hprefix : Text.trimEnd head' <+: head' := by
    rw [Text.trimEnd, Text.dropWhileEnd, ← List.reverse_suffix, List.reverse_reverse]
    exact List.dropWhile_suffix _
  exact (hin.trans hprefix.isInfix).trans (List.prefix_append _ _).isInfix

theorem getLast?_resolveInverse (hmarker : marker ≠ []) (h : resolveInverse marker m = .ok c)
    (hlast : m.getLast? = some '.') : c.getLast? = some '.' := by
  obtain ⟨head, body, piece, pieces, swaps, -, rfl, rfl, -, hall, rfl⟩ := exists_pieces hmarker h
  have hbody := getLast?_body hlast
  rw [← getLast?_flatten_swaps hall] at hbody
  have htail := getLast?_trimStart hbody
  rw [List.getLast?_append_of_ne_nil, htail]
  intro hnil
  rw [hnil] at htail
  exact absurd htail (by decide)

/-- White space apart, a resolved clause is the clause itself, or the two have an ending in common that
begins with a closing parenthesis. -/
theorem compact_resolveInverse (hmarker : marker ≠ []) (h : resolveInverse marker m = .ok c) :
    Text.compact c = Text.compact m ∨
      ∃ rest, ')' :: rest <:+ Text.compact m ∧ ')' :: rest <:+ Text.compact c := by
  obtain ⟨head, body, piece, pieces, swaps, -, rfl, rfl, -, hall, rfl⟩ := exists_pieces hmarker h
  have hblank : ∀ d, isBlank d = true → (!isBlank d) = false := fun d hd => by simp [hd]
  have hspaced : Text.compact spacedNeck = Text.compact neck := rfl
  have hc : Text.compact (Text.trimEnd head ++ spacedNeck ++ Text.trimStart (piece ++ swaps.flatten)) =
      Text.compact (head ++ neck) ++ Text.compact (piece ++ swaps.flatten) := by
    rw [Text.compact_append, Text.compact_append, hspaced, Text.compact_append head]
    simp only [Text.compact, Text.filter_trimEnd hblank, Text.filter_trimStart hblank]
  rw [hc, Text.compact_append (head ++ neck)]
  rcases exists_ending_flatten_swaps hall piece with heq | ⟨rest, hbody, hswapped⟩
  · exact .inl (by rw [heq])
  · have hrest : Text.compact (')' :: rest) = ')' :: Text.compact rest := rfl
    refine .inr ⟨Text.compact rest, hrest ▸ ?_, hrest ▸ ?_⟩
    · exact (hbody.filter _).trans (List.suffix_append _ _)
    · exact (hswapped.filter _).trans (List.suffix_append _ _)

end Resolved

/-- **Without type stripping nothing is lost, duplicated or unbalanced.**  Let `m` be the marked
clause of a rule, `head` and `body` its parts around the first neck, and `c` the canonical clause.
The parentheses of `c` are those of `m`; with the markers that occur in `body` it has the characters
of `m`, white space apart; and it is `head` without trailing white space, the spaced neck, and a text
that ends with a full stop. -/
theorem canonicalize_conserves {k : Canonicalizer} {rule c : Text}
    (hstrip : k.stripsTypes = false) (hmarker : k.marker ≠ [])
    (hparens : ∀ x ∈ k.marker, isParen x = false)
    (h : k.canonicalize rule = .ok (some c)) :
    ∃ m head body, markVariables (k.connectives.toClause rule) = .ok m ∧
      Text.cut? neck m = some (head, body) ∧
      (c.filter isParen = m.filter isParen ∧ Balanced c) ∧
      (Text.compact c : Multiset Char) +
          Text.occurrences k.marker body • (Text.compact k.marker : Multiset Char) =
        Text.compact m ∧
      (∃ tail, Text.cut? spacedNeck c = some (Text.trimEnd head, tail)) ∧
      c.getLast? = some '.' := by
  obtain ⟨m, resolved, hm, -, hres, hc⟩ := Canonicalizer.canonicalize_eq_ok_some_iff.1 h
  obtain rfl : resolved = c := by simpa [hstrip] using hc
  obtain ⟨head, body, -, -, -, hcut, -⟩ := exists_pieces hmarker hres
  have hparen := filter_isParen_resolveInverse hmarker hparens hres
  exact ⟨m, head, body, hm, hcut, ⟨hparen, (balanced_congr hparen).2 (balanced_marked hm)⟩,
    coe_compact_resolveInverse hmarker hres hcut,
    cut?_spacedNeck_resolveInverse hmarker hres hcut,
    getLast?_resolveInverse hmarker hres (getLast?_marked hm)⟩

/-- The exchanged parts of an argument list need not be terms. -/
theorem canonicalize_conserves_nested :
    let k : Canonicalizer := {}
    let rule := "p(x) <- INVq(f(u,g( z)))".toList
    let c := "p(X) :- q(G( Z,F(U))).".toList
    k.canonicalize rule = .ok (some c) ∧
      ∃ m head body, markVariables (k.connectives.toClause rule) = .ok m ∧
        Text.cut? neck m = some (head, body) ∧
        (c.filter isParen = m.filter isParen ∧ Balanced c) ∧
        (Text.compact c : Multiset Char) +
            Text.occurrences k.marker body • (Text.compact k.marker : Multiset Char) =
          Text.compact m ∧
        (∃ tail, Text.cut? spacedNeck c = some (Text.trimEnd head, tail)) ∧
        c.getLast? = some '.' := by
  intro k rule c
  have h : k.canonicalize rule = .ok (some c) := by decide +kernel
  exact ⟨h, canonicalize_conserves rfl (by decide) (by simp [k, isParen]) h⟩

end MinedRules
