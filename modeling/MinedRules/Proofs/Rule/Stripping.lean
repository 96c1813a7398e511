import MinedRules.Proofs.Rule.Conservation
import MinedRules.Rule.Stripping

/-!
# What stripping leaves of the parentheses

Stripping cuts the annotation out of a clause: the text from the first `((` through the last `))`
after it (`Annotated`).  These two places need not belong to one level of nesting.

* `stripTypes_cases`, `stripTypes_eq_ok_iff` : a clause without `((` stays as it is, and one with an
  annotation loses it.
* `balanced_cut_iff` : a balanced text stays balanced without one of its parts if and only if the part
  has as many opening as closing parentheses.
* `canonicalize_stripping_balanced_iff` : hence the canonical clause is balanced if and only if the
  annotation closes as many parentheses as it opens.
-/

namespace MinedRules

/-- Where annotations begin. -/
def doubleOpen : Text := ['(', '(']

/-- Where annotations end. -/
def doubleClose : Text := [')', ')']

/-- The clause has the annotation `cut` between `front` and `back`: it begins with the first `((` of
the clause and ends with the last `))` after that. -/
structure Annotated (clause front cut back : Text) : Prop where
  text : clause = front ++ cut ++ back
  ends : ∃ inside, cut = doubleOpen ++ inside ++ doubleClose
  first : Text.Clear doubleOpen front
  last : ¬ doubleClose <:+: doubleClose.tail ++ back

/-! ### The annotation of a clause -/

section

variable {clause front cut back inside s : Text}

theorem stripTypes_of_no_open (h : ¬ doubleOpen <:+: clause) : stripTypes clause = .ok clause := by
  have hcut : Text.cut? ['(', '('] clause = none := Text.cut?_eq_none h
  rw [stripTypes, hcut]

theorem stripTypes_of_unclosed (hcut : Text.cut? doubleOpen clause = some (front, inside))
    (h : ¬ doubleClose <:+: inside) :
    stripTypes clause = .error (.unclosedTypes (Text.byteLength front)) := by
  have hcut' : Text.cut? ['(', '('] clause = some (front, inside) := hcut
  have hlast : Text.cutLast? [')', ')'] inside = none := Text.cutLast?_eq_none_iff.2 h
  rw [stripTypes, hcut']
  simp only [hlast]

theorem stripTypes_of_annotated (h : Annotated clause front cut back) :
    stripTypes clause = .ok (front ++ back) := by
  obtain ⟨inside, hcut⟩ := h.ends
  have htext : clause = front ++ doubleOpen ++ (inside ++ doubleClose ++ back) := by
    rw [h.text, hcut]
    simp only [List.append_assoc]
  have hfirst : Text.cut? ['(', '('] clause = some (front, inside ++ doubleClose ++ back) :=
    (Text.cut?_eq_some_iff (by decide)).2 ⟨htext, h.first⟩
  have hlast : Text.cutLast? [')', ')'] (inside ++ doubleClose ++ back) = some (inside, back) :=
    (Text.cutLast?_eq_some_iff (by decide)).2 ⟨rfl, h.last⟩
  rw [stripTypes, hfirst]
  simp only [hlast]

theorem stripTypes_cases (clause : Text) :
    (¬ doubleOpen <:+: clause ∧ stripTypes clause = .ok clause) ∨
      (∃ front inside, clause = front ++ doubleOpen ++ inside ∧ Text.Clear doubleOpen front ∧
        ¬ doubleClose <:+: inside ∧
        stripTypes clause = .error (.unclosedTypes (Text.byteLength front))) ∨
      ∃ front cut back, Annotated clause front cut back ∧ stripTypes clause = .ok (front ++ back) := by
  cases hcut : Text.cut? doubleOpen clause with
  | none =>
    have hopen := Text.cut?_eq_none_iff.1 hcut
    exact .inl ⟨hopen, stripTypes_of_no_open hopen⟩
  | some parts =>
    obtain ⟨front, inside⟩ := parts
    obtain ⟨htext, hfirst⟩ := (Text.cut?_eq_some_iff (by decide)).1 hcut
    cases hlast : Text.cutLast? doubleClose inside with
    | none =>
      have hclose := Text.cutLast?_eq_none_iff.1 hlast
      exact .inr (.inl ⟨front, inside, htext, hfirst, hclose, stripTypes_of_unclosed hcut hclose⟩)
    | some parts =>
      obtain ⟨middle, back⟩ := parts
      obtain ⟨rfl, hno⟩ := (Text.cutLast?_eq_some_iff (by decide)).1 hlast
      have hcut' : Annotated clause front (doubleOpen ++ middle ++ doubleClose) back :=
        ⟨by simp only [htext, List.append_assoc], ⟨middle, rfl⟩, hfirst, hno⟩
      exact .inr (.inr ⟨_, _, _, hcut', stripTypes_of_annotated hcut'⟩)

/-- **What stripping does**: nothing to a clause without `((`, and from another one it cuts the
annotation. -/
theorem stripTypes_eq_ok_iff : stripTypes clause = .ok s ↔
    (¬ doubleOpen <:+: clause ∧ s = clause) ∨
      ∃ front cut back, Annotated clause front cut back ∧ s = front ++ back := by
  constructor
  · intro h
    rcases stripTypes_cases clause with
      ⟨hopen, hs⟩ | ⟨front, inside, -, -, -, hs⟩ | ⟨front, cut, back, hcut', hs⟩
    · exact .inl ⟨hopen, Except.ok.inj (h.symm.trans hs)⟩
    · exact absurd (h.symm.trans hs) (by simp)
    · exact .inr ⟨front, cut, back, hcut', Except.ok.inj (h.symm.trans hs)⟩
  · rintro (⟨hopen, rfl⟩ | ⟨front, cut, back, hcut', rfl⟩)
    · exact stripTypes_of_no_open hopen
    · exact stripTypes_of_annotated hcut'

end

/-! ### Balance -/

/-- **A balanced text stays balanced without one of its parts if and only if the part has as many
opening as closing parentheses.** -/
theorem balanced_cut_iff {front cut back : Text} (h : Balanced (front ++ cut ++ back)) :
    Balanced (front ++ back) ↔ cut.count '(' = cut.count ')' := by
  obtain ⟨hprefixes, htotal⟩ := h
  simp only [List.count_append] at htotal
  constructor
  · rintro ⟨-, hleft⟩
    simp only [List.count_append] at hleft
    omega
  · intro hcut
    refine ⟨fun p hp => ?_, by simp only [List.count_append]; omega⟩
    rcases List.prefix_or_prefix_of_prefix hp (List.prefix_append front back) with hp | ⟨q, rfl⟩
    · exact hprefixes p (hp.trans ((List.prefix_append front cut).trans (List.prefix_append _ _)))
    · -- a prefix that goes beyond the cut is one of the whole text when the cut is put back
      have hq : q <+: back := (List.prefix_append_right_inj front).1 hp
      have hwhole := hprefixes (front ++ cut ++ q) ((List.prefix_append_right_inj _).2 hq)
      simp only [List.count_append] at hwhole ⊢
      omega

theorem filter_isParen_terminateClause (t : Text) :
    (terminateClause t).filter isParen = t.filter isParen := by
  have hsign : ∀ d, isParen d = false → ∀ c, (c == d) = true → isParen c = false := by
    intro d hd c hc
    rwa [beq_iff_eq.1 hc]
  have hstop : ['.'].filter isParen = [] := rfl
  rw [terminateClause, List.filter_append, hstop, List.append_nil,
    Text.filter_trim isParen_of_isBlank, Text.filter_trimBy (hsign ',' rfl),
    Text.filter_trim isParen_of_isBlank, Text.filter_trimBy (hsign '.' rfl),
    Text.filter_trim isParen_of_isBlank]

theorem balanced_terminateClause {t : Text} : Balanced (terminateClause t) ↔ Balanced t :=
  balanced_congr (filter_isParen_terminateClause t)

/-- **What stripping leaves of a balanced clause is balanced if and only if the annotation, if there is
one, closes as many parentheses as it opens.** -/
theorem balanced_stripTypes_iff {clause s : Text} (hbal : Balanced clause)
    (h : stripTypes clause = .ok s) : Balanced s ↔ ∀ front cut back,
      Annotated clause front cut back → cut.count '(' = cut.count ')' := by
  constructor
  · intro hs front cut back hcut'
    rw [stripTypes_of_annotated hcut', Except.ok.injEq] at h
    rw [hcut'.text] at hbal
    exact (balanced_cut_iff hbal).1 (h ▸ hs)
  · intro hcount
    rcases stripTypes_eq_ok_iff.1 h with ⟨-, rfl⟩ | ⟨front, cut, back, hcut', rfl⟩
    · exact hbal
    · have htext := hcut'.text
      rw [htext] at hbal
      exact (balanced_cut_iff hbal).2 (hcount front cut back hcut')

/-! ### The canonical clause -/

namespace Canonicalizer

variable {k : Canonicalizer} {rule c r : Text}

theorem strip_eq_ok_iff {clause : Text} :
    strip clause = .ok c ↔ ∃ s, stripTypes clause = .ok s ∧ c = terminateClause s := by
  rw [strip]
  cases stripTypes clause with
  | error e => simp
  | ok s => simp [eq_comm]

/-- Stripping starts from the canonical clause that keeps its annotation. -/
theorem canonicalize_stripping (hstrips : k.stripsTypes = true)
    (h : ({ k with stripsTypes := false } : Canonicalizer).canonicalize rule = .ok (some r)) :
    k.canonicalize rule = (strip r).map some := by
  obtain ⟨m, resolved, hm, hfact, hr, hresolved⟩ := canonicalize_eq_ok_some_iff.1 h
  obtain rfl : resolved = r := by simpa using hresolved
  rw [canonicalize, hm]
  simp only [hfact, hr, hstrips, if_true, Bool.false_eq_true, if_false]

theorem exists_strip_eq_ok (hstrips : k.stripsTypes = true)
    (h : k.canonicalize rule = .ok (some c)) :
    ∃ r, ({ k with stripsTypes := false } : Canonicalizer).canonicalize rule = .ok (some r) ∧
      strip r = .ok c := by
  obtain ⟨m, r, hm, hfact, hr, hc⟩ := canonicalize_eq_ok_some_iff.1 h
  rw [if_pos hstrips] at hc
  exact ⟨r, canonicalize_eq_ok_some_iff.2 ⟨m, r, hm, hfact, hr, by simp⟩, hc⟩

theorem balanced_canonicalize (hmarker : k.marker ≠ [])
    (hparens : ∀ x ∈ k.marker, isParen x = false) (hstrips : k.stripsTypes = false)
    (h : k.canonicalize rule = .ok (some c)) : Balanced c := by
  obtain ⟨m, resolved, hm, -, hr, hc⟩ := canonicalize_eq_ok_some_iff.1 h
  obtain rfl : resolved = c := by simpa [hstrips] using hc
  exact (balanced_congr (filter_isParen_resolveInverse hmarker hparens hr)).2 (balanced_marked hm)

end Canonicalizer

/-- **The balance of a stripped clause.**  Let `r` be the canonical clause of a rule with its
annotation.  Without the annotation the clause is balanced if and only if the annotation, from the
first `((` through the last `))` after it, has as many opening as closing parentheses.  If nothing
closes the first `((` there is no clause, and the error says where it stands. -/
theorem canonicalize_stripping_balanced_iff (rule : Text) :
    (∀ c, ({ stripsTypes := true } : Canonicalizer).canonicalize rule = .ok (some c) →
      ∃ r, ({} : Canonicalizer).canonicalize rule = .ok (some r) ∧
        (Balanced c ↔ ∀ front cut back,
          Annotated r front cut back → cut.count '(' = cut.count ')')) ∧
    ∀ r front inside, ({} : Canonicalizer).canonicalize rule = .ok (some r) →
      Text.cut? doubleOpen r = some (front, inside) → ¬ doubleClose <:+: inside →
      ({ stripsTypes := true } : Canonicalizer).canonicalize rule =
        .error (.unclosedTypes (Text.byteLength front)) := by
  have hstrips : ({ stripsTypes := true } : Canonicalizer).stripsTypes = true := rfl
  constructor
  · intro c h
    obtain ⟨r, hr, hstrip⟩ := Canonicalizer.exists_strip_eq_ok hstrips h
    obtain ⟨s, hs, hc⟩ := Canonicalizer.strip_eq_ok_iff.1 hstrip
    have hbal : Balanced r :=
      Canonicalizer.balanced_canonicalize (by decide) (by simp [isParen]) rfl hr
    rw [hc, balanced_terminateClause]
    exact ⟨r, hr, balanced_stripTypes_iff hbal hs⟩
  · intro r front inside hr hcut hunclosed
    rw [Canonicalizer.canonicalize_stripping hstrips hr, Canonicalizer.strip,
      stripTypes_of_unclosed hcut hunclosed]
    rfl

/-- An annotation inside of further terms goes with its own parentheses if no others are closed next
to it, and one that is closed inside of its term is refused. -/
theorem canonicalize_stripping_balanced_iff_nested :
    let k : Canonicalizer := { stripsTypes := true }
    let c := "p(X) :- f(G,Y).".toList
    (k.canonicalize "p(x) <- f(g((t,x)),y)".toList = .ok (some c) ∧
      ∃ r, ({} : Canonicalizer).canonicalize "p(x) <- f(g((t,x)),y)".toList = .ok (some r) ∧
        (Balanced c ↔ ∀ front cut back,
          Annotated r front cut back → cut.count '(' = cut.count ')')) ∧
    k.canonicalize "p(x) <- f((t),x)".toList = .error (.unclosedTypes 9) := by
  intro k c
  have h : k.canonicalize "p(x) <- f(g((t,x)),y)".toList = .ok (some c) := by decide +kernel
  have hplain : ({} : Canonicalizer).canonicalize "p(x) <- f((t),x)".toList =
      .ok (some "p(X) :- f((T),X).".toList) := by decide +kernel
  have hcut : Text.cut? doubleOpen "p(X) :- f((T),X).".toList =
      some ("p(X) :- f".toList, "T),X).".toList) := by decide +kernel
  refine ⟨⟨h, (canonicalize_stripping_balanced_iff _).1 c h⟩, ?_⟩
  exact (canonicalize_stripping_balanced_iff _).2 _ _ _ hplain hcut (by decide)

/-- **Stripping can leave a parenthesis open**: the last `))` of this clause also closes the term
around the annotation. -/
theorem canonicalize_stripping_unbalanced :
    let k : Canonicalizer := { stripsTypes := true }
    let c := "p(X) :- f(A.".toList
    k.canonicalize "p(x) <- f(a((t,x)))".toList = .ok (some c) ∧ ¬ Balanced c := by
  intro k c
  have hcount : c.count '(' ≠ c.count ')' := by decide +kernel
  have h : k.canonicalize "p(x) <- f(a((t,x)))".toList = .ok (some c) := by decide +kernel
  exact ⟨h, fun hbal => hcount hbal.2⟩

end MinedRules
