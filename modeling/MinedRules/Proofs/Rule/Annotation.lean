import MinedRules.Proofs.Rule.Stripping

/-!
# No annotation is left behind

Stripping cuts from the first `((` of a clause through its last `))`.  What is left in front does not end
with an opening parenthesis, so no further `((` comes into being where the two parts meet, and there is
no `))` left that could close one (`Annotated.not_hasAnnotation`).

* `stripTypes_eq_error_iff` : when a clause is refused.
* `stripTypes_leaves_none` : hence a second run finds nothing that it could cut.
-/

namespace MinedRules

/-- Somewhere in the text a `((` is followed by a `))`. -/
def HasAnnotation (t : Text) : Prop :=
  ∃ a inside b, t = a ++ doubleOpen ++ inside ++ doubleClose ++ b

variable {clause front cut back a s : Text} {e : RuleError}

theorem prefix_of_clear_doubleOpen (h : Text.Clear doubleOpen front)
    (hpre : a ++ doubleOpen <+: front ++ back) : front <+: a := by
  have hno : ¬ doubleOpen <:+: front ++ ['('] := h
  have hopens : a ++ doubleOpen = a ++ ['('] ++ ['('] := by simp [doubleOpen]
  rcases List.prefix_or_prefix_of_prefix hpre (List.prefix_append front back) with hin | hin
  · exact absurd ((List.suffix_append a _).isInfix.trans hin.isInfix) h.not_infix
  · -- the front is all of `a ++ ['(', '(']`, or all but the last parenthesis, or ends before both
    rw [hopens] at hin
    rcases List.prefix_concat_iff.1 hin with rfl | hin
    · exact absurd ⟨a, ['('], by simp [doubleOpen]⟩ hno
    rcases List.prefix_concat_iff.1 hin with rfl | hin
    · exact absurd ⟨a, [], by simp [doubleOpen]⟩ hno
    · exact hin

theorem Annotated.hasAnnotation (h : Annotated clause front cut back) : HasAnnotation clause := by
  obtain ⟨inside, hcut⟩ := h.ends
  exact ⟨front, inside, back, by rw [h.text, hcut]; simp only [List.append_assoc]⟩

/-- **Around an annotation there is no other one**, also not where the two parts meet. -/
theorem Annotated.not_hasAnnotation (h : Annotated clause front cut back) :
    ¬ HasAnnotation (front ++ back) := by
  rintro ⟨a, inside, b, htext⟩
  have hpre : a ++ doubleOpen <+: front ++ back :=
    ⟨inside ++ doubleClose ++ b, by rw [htext]; simp only [List.append_assoc]⟩
  obtain ⟨w, rfl⟩ := prefix_of_clear_doubleOpen h.first hpre
  simp only [List.append_assoc, List.append_cancel_left_eq] at htext
  have hclose : doubleClose <:+: back :=
    ⟨w ++ doubleOpen ++ inside, b, by rw [htext]; simp only [List.append_assoc]⟩
  exact h.last (hclose.trans (List.suffix_append _ _).isInfix)

theorem stripTypes_eq_error_iff : stripTypes clause = .error e ↔ ∃ front inside,
    clause = front ++ doubleOpen ++ inside ∧ Text.Clear doubleOpen front ∧
      ¬ doubleClose <:+: inside ∧ e = .unclosedTypes (Text.byteLength front) := by
  constructor
  · intro h
    rcases stripTypes_cases clause with
      ⟨-, hs⟩ | ⟨front, inside, htext, hfirst, hclose, hs⟩ | ⟨front, cut, back, -, hs⟩
    · exact absurd (h.symm.trans hs) (by simp)
    · exact ⟨front, inside, htext, hfirst, hclose, Except.error.inj (h.symm.trans hs)⟩
    · exact absurd (h.symm.trans hs) (by simp)
  · rintro ⟨front, inside, rfl, hfirst, hclose, rfl⟩
    exact stripTypes_of_unclosed (Text.cut?_append (by decide) hfirst) hclose

theorem stripTypes_of_not_hasAnnotation (h : ¬ HasAnnotation s) :
    stripTypes s = .ok s ∨ ∃ start, stripTypes s = .error (.unclosedTypes start) := by
  rcases stripTypes_cases s with
    ⟨-, hs⟩ | ⟨front, inside, -, -, -, hs⟩ | ⟨front, cut, back, hcut, -⟩
  · exact .inl hs
  · exact .inr ⟨_, hs⟩
  · exact absurd hcut.hasAnnotation h

/-- **Stripping leaves no annotation behind.**  A clause is refused if and only if its first `((` has no
`))` after it, and the error says where this `((` stands.  Otherwise at most one part is cut out, from the
first `((` through the last `))`; no `((` of what is left has a `))` after it; and stripping once more cuts
nothing. -/
theorem stripTypes_leaves_none (clause : Text) :
    (∀ e, stripTypes clause = .error e ↔ ∃ front inside,
      clause = front ++ doubleOpen ++ inside ∧ Text.Clear doubleOpen front ∧
        ¬ doubleClose <:+: inside ∧ e = .unclosedTypes (Text.byteLength front)) ∧
    ∀ s, stripTypes clause = .ok s →
      ¬ HasAnnotation s ∧
      ((¬ doubleOpen <:+: clause ∧ s = clause) ∨
        ∃ front cut back, Annotated clause front cut back ∧ s = front ++ back) ∧
      (stripTypes s = .ok s ∨ ∃ start, stripTypes s = .error (.unclosedTypes start)) := by
  refine ⟨fun e => stripTypes_eq_error_iff, fun s hs => ?_⟩
  have hparts := stripTypes_eq_ok_iff.1 hs
  have hnone : ¬ HasAnnotation s := by
    rcases hparts with ⟨hopen, rfl⟩ | ⟨front, cut, back, hcut, rfl⟩
    · rintro ⟨a, inside, b, rfl⟩
      exact hopen ⟨a, inside ++ doubleClose ++ b, by simp only [List.append_assoc]⟩
    · exact hcut.not_hasAnnotation
  exact ⟨hnone, hparts, stripTypes_of_not_hasAnnotation hnone⟩

/-- A run of parentheses on both sides of the cut, and another `((` behind it: the second run refuses the
clause. -/
theorem stripTypes_leaves_none_unclosed :
    let clause := "p(X) :- a(((T,X))),b((Y,c).".toList
    let s := "p(X) :- a,b((Y,c).".toList
    stripTypes clause = .ok s ∧ ¬ HasAnnotation s ∧
      stripTypes s = .error (.unclosedTypes (Text.byteLength "p(X) :- a,b".toList)) := by
  intro clause s
  have hs : stripTypes clause = .ok s := by decide +kernel
  have hfirst : ¬ doubleOpen <:+: "p(X) :- a,b".toList ++ ['('] := by decide
  have hs' : stripTypes s = .error (.unclosedTypes (Text.byteLength "p(X) :- a,b".toList)) :=
    ((stripTypes_leaves_none s).1 _).2
      ⟨"p(X) :- a,b".toList, "Y,c).".toList, rfl, hfirst, by decide, rfl⟩
  exact ⟨hs, ((stripTypes_leaves_none clause).2 s hs).1, hs'⟩

end MinedRules
