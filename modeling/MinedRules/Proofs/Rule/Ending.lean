import MinedRules.Proofs.Rule.Stripping
import MinedRules.Proofs.Text.Layers

/-!
# How a clause ends

`terminateClause` trims white space, full stops, white space, commas and white space again, once each,
and puts a full stop behind what is left.  Where the signs around a text are layered in this order
(`Surrounded`), nothing of them is left; in another order some of them stay.

* `terminateClause_of_surrounded` : the text inside of the layers and one full stop.
* `endsOnce_of_surrounded` : for a single full stop at the end only the end matters.
* `exists_surrounded_of_fixed` : terminating again changes nothing only if nothing was left to trim.
* `terminateClause_endsOnce` : hence when a clause ends with exactly one full stop.
* `terminateClause_endsTwice` : a full stop that stays, and is doubled.
-/

namespace MinedRules

/-- The classes that are trimmed when a clause is terminated. -/
def endingClasses : List (Char → Bool) := [isBlank, (· == '.'), isBlank, (· == ','), isBlank]

/-- The signs that can stand around a clause: white space, full stops and commas. -/
def isEnding (c : Char) : Bool := isBlank c || c == '.' || c == ','

/-- A full stop ends the text, and no other one stands before it. -/
def EndsOnce (t : Text) : Prop := ∃ u, t = u ++ ['.'] ∧ u.getLast? ≠ some '.'

/-- The text is `core` with signs around it in the order in which they are trimmed: from the outside in,
white space, full stops, white space, commas, and white space. -/
def Surrounded (t core : Text) : Prop :=
  ∃ front back, t = front ++ core ++ back ∧ Text.Layered endingClasses front ∧
    Text.Layered endingClasses back.reverse

/-- No sign stands at the start of the text. -/
def BareStart (t : Text) : Prop := ∀ c ∈ t.head?, isEnding c = false

/-- No sign stands at the end of the text. -/
def BareEnd (t : Text) : Prop := ∀ c ∈ t.getLast?, isEnding c = false

variable {t u core : Text}

theorem terminateClause_eq (t : Text) :
    terminateClause t = Text.trimEach endingClasses t ++ ['.'] := by
  simp only [terminateClause, Text.trim, endingClasses, Text.trimEach_cons, Text.trimEach_nil]

theorem endsOnce_concat : EndsOnce (u ++ ['.']) ↔ u.getLast? ≠ some '.' := by
  constructor
  · rintro ⟨v, huv, hv⟩
    rwa [List.append_cancel_right huv]
  · intro h
    exact ⟨u, rfl, h⟩

theorem forall_endingClasses {c : Char} :
    (∀ p ∈ endingClasses, p c = false) ↔ isEnding c = false := by
  simp only [endingClasses, isEnding, List.forall_mem_cons, Bool.or_eq_false_iff]
  simp
  tauto

/-! ### Texts in layers -/

theorem terminateClause_of_surrounded (h : Surrounded t core) (hstart : BareStart core)
    (hend : BareEnd core) : terminateClause t = core ++ ['.'] := by
  obtain ⟨front, back, rfl, hfront, hback⟩ := h
  rw [terminateClause_eq, Text.trimEach_of_layered hfront hback]
  · exact fun c hc => forall_endingClasses.2 (hstart c hc)
  · exact fun c hc => forall_endingClasses.2 (hend c hc)

/-- A text without signs at its end, whatever stands at its start, gets one full stop. -/
theorem endsOnce_of_surrounded (h : Surrounded t core) (hend : BareEnd core) :
    EndsOnce (terminateClause t) := by
  obtain ⟨front, back, rfl, hfront, hback⟩ := h
  rw [terminateClause_eq, endsOnce_concat]
  by_cases hne : core = []
  · rw [hne, List.append_nil, Text.trimEach_eq_nil hfront hback]
    simp
  · have hlast : (front ++ core).getLast? = core.getLast? := List.getLast?_append_of_ne_nil _ hne
    have hclasses : ∀ c ∈ (front ++ core).getLast?, ∀ p ∈ endingClasses, p c = false :=
      fun c hc => forall_endingClasses.2 (hend c (hlast ▸ hc))
    rw [Text.trimEach_append_of_getLast? (by simp [hne]) hclasses, Text.layered_iff.1 hback,
      List.reverse_nil, List.append_nil, Text.getLast?_trimEach hclasses, hlast]
    intro hstop
    exact absurd (hend '.' hstop) (by decide)

/-! ### Texts that stay as they are -/

/-- **Terminating again changes nothing only if nothing is left to trim**: then the text was surrounded
by signs in the right order. -/
theorem exists_surrounded_of_fixed (h : terminateClause (terminateClause t) = terminateClause t) :
    ∃ core, Surrounded t core ∧ BareStart core ∧ BareEnd core := by
  set core := Text.trimEach endingClasses t with hcore
  have hfix : Text.trimEach endingClasses (core ++ ['.']) = core := by
    rw [terminateClause_eq t, ← hcore, terminateClause_eq] at h
    exact List.append_cancel_right h
  set inner := Text.trimBy (· == '.') (core.dropWhile isBlank) with hinner
  rw [endingClasses, Text.trimEach_cons, Text.trimBy_concat_of_neg (by decide),
    Text.trimEach_cons, Text.trimBy_concat_of_pos (by decide), ← hinner] at hfix
  -- two steps take the full stop away again and add nothing, so already they give `core`
  have hcore' : inner = core := by
    have hsub : inner.Sublist core :=
      (Text.trimBy_sublist _ _).trans (List.dropWhile_sublist isBlank)
    have hsub' := Text.trimEach_sublist [isBlank, (· == ','), isBlank] inner
    rw [hfix] at hsub'
    exact hsub.antisymm hsub'
  have hstop : (∀ c ∈ core.head?, (c == '.') = false) ∧ ∀ c ∈ core.getLast?, (c == '.') = false :=
    hcore' ▸ ⟨Text.head?_trimBy _ _, Text.getLast?_trimBy _ _⟩
  rw [hcore'] at hfix
  have hends := Text.ends_of_trimEach_eq hfix
  have hblank := hends isBlank (by simp)
  have hcomma := hends (· == ',') (by simp)
  refine ⟨core, Text.exists_trimEach endingClasses t, fun c hc => ?_, fun c hc => ?_⟩
  · simp only [isEnding, hblank.1 c hc, hstop.1 c hc, hcomma.1 c hc, Bool.or_self]
  · simp only [isEnding, hblank.2 c hc, hstop.2 c hc, hcomma.2 c hc, Bool.or_self]

theorem terminateClause_fixed (h : Surrounded t core) (hstart : BareStart core)
    (hend : BareEnd core) : terminateClause (terminateClause t) = terminateClause t := by
  rw [terminateClause_of_surrounded h hstart hend]
  refine terminateClause_of_surrounded ⟨[], ['.'], by simp, ?_, ?_⟩ hstart hend
  · exact Text.layered_iff.2 (by decide)
  · exact Text.layered_iff.2 (by decide)

/-! ### Terminated clauses -/

/-- **When a terminated text ends with exactly one full stop.**  It does if there are no signs at the
end but those in layers.  Terminating it again changes nothing if and only if this holds at the start,
too.  A stripped clause is a terminated text, so the same holds of it. -/
theorem terminateClause_endsOnce (k : Canonicalizer) (t rule : Text) :
    (∀ core, Surrounded t core → BareEnd core → EndsOnce (terminateClause t)) ∧
    ((EndsOnce (terminateClause t) ∧ terminateClause (terminateClause t) = terminateClause t) ↔
      ∃ core, Surrounded t core ∧ BareStart core ∧ BareEnd core) ∧
    ∀ c, k.stripsTypes = true → k.canonicalize rule = .ok (some c) →
      ∃ r s, ({ k with stripsTypes := false } : Canonicalizer).canonicalize rule = .ok (some r) ∧
        stripTypes r = .ok s ∧ c = terminateClause s ∧
        ∀ core, Surrounded s core → BareEnd core → EndsOnce c := by
  refine ⟨fun core => endsOnce_of_surrounded, ⟨?_, ?_⟩, fun c hstrips h => ?_⟩
  · rintro ⟨-, hfixed⟩
    exact exists_surrounded_of_fixed hfixed
  · rintro ⟨core, hcore, hstart, hend⟩
    exact ⟨endsOnce_of_surrounded hcore hend, terminateClause_fixed hcore hstart hend⟩
  · obtain ⟨r, hr, hstrip⟩ := Canonicalizer.exists_strip_eq_ok hstrips h
    obtain ⟨s, hs, hc⟩ := Canonicalizer.strip_eq_ok_iff.1 hstrip
    refine ⟨r, s, hr, hs, hc, fun core hcore hend => ?_⟩
    rw [hc]
    exact endsOnce_of_surrounded hcore hend

/-- Layers on both sides of a text, and a comma in front of the full stop when an annotation is cut. -/
theorem terminateClause_endsOnce_layered :
    let t := " .. , h(X) :- b(X),, ..\n".toList
    let k : Canonicalizer := { stripsTypes := true }
    let c := "p(X) :- q(X).".toList
    (EndsOnce (terminateClause t) ∧ terminateClause (terminateClause t) = terminateClause t) ∧
      k.canonicalize "p(x) <- q(x) ∧ ((t,x))".toList = .ok (some c) ∧ EndsOnce c := by
  intro t k c
  have hcore : Surrounded t "h(X) :- b(X)".toList :=
    ⟨" .. , ".toList, ",, ..\n".toList, by decide, Text.layered_iff.2 (by decide),
      Text.layered_iff.2 (by decide)⟩
  have hends : BareStart "h(X) :- b(X)".toList ∧ BareEnd "h(X) :- b(X)".toList :=
    ⟨Text.forall_mem_of_eq_some rfl (by decide), Text.forall_mem_of_eq_some rfl (by decide)⟩
  have h : k.canonicalize "p(x) <- q(x) ∧ ((t,x))".toList = .ok (some c) := by decide +kernel
  obtain ⟨-, hfixed, hcanonical⟩ :=
    terminateClause_endsOnce k t "p(x) <- q(x) ∧ ((t,x))".toList
  refine ⟨hfixed.2 ⟨_, hcore, hends⟩, h, ?_⟩
  obtain ⟨r, s, hr, hs, -, honce⟩ := hcanonical c rfl h
  have hplain : ({ k with stripsTypes := false } : Canonicalizer).canonicalize
      "p(x) <- q(x) ∧ ((t,x))".toList = .ok (some "p(X) :- q(X) , ((T,X)).".toList) := by
    decide +kernel
  have hcut : stripTypes "p(X) :- q(X) , ((T,X)).".toList = .ok "p(X) :- q(X) , .".toList := by
    decide +kernel
  have hr' := Option.some.inj (Except.ok.inj (hplain.symm.trans hr))
  rw [← hr'] at hs
  have hs' := Except.ok.inj (hcut.symm.trans hs)
  have hclause : Surrounded "p(X) :- q(X) , .".toList "p(X) :- q(X)".toList :=
    ⟨[], " , .".toList, by decide, Text.layered_iff.2 (by decide), Text.layered_iff.2 (by decide)⟩
  exact honce _ (hs' ▸ hclause) (Text.forall_mem_of_eq_some rfl (by decide))

/-- **A full stop can stay and be doubled**: one that stands between white space and other full stops is
not trimmed, nor is one inside of a comma. -/
theorem terminateClause_endsTwice :
    let k : Canonicalizer := { stripsTypes := true }
    let c := "p(X) :- q(X)..".toList
    (¬ EndsOnce (terminateClause "h(X) :- b(X).,".toList) ∧
      terminateClause (terminateClause "h(X) :- b(X).,".toList) ≠
        terminateClause "h(X) :- b(X).,".toList) ∧
    k.canonicalize "p(x) <- q(x). .".toList = .ok (some c) ∧ ¬ EndsOnce c := by
  intro k c
  have htwice : ∀ u : Text, ¬ EndsOnce (u ++ ['.'] ++ ['.']) := by
    intro u h
    exact endsOnce_concat.1 h List.getLast?_concat
  have ht : terminateClause "h(X) :- b(X).,".toList = "h(X) :- b(X)".toList ++ ['.'] ++ ['.'] := by
    decide +kernel
  have hc : c = "p(X) :- q(X)".toList ++ ['.'] ++ ['.'] := by decide
  refine ⟨⟨ht ▸ htwice _, by decide +kernel⟩, by decide +kernel, hc ▸ htwice _⟩

end MinedRules
