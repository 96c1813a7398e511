import MinedRules.Proofs.Rule.Conservation
import MinedRules.Proofs.Rule.Printed

/-!
# Markers and nested terms

Argument lists are found by their first parentheses, whatever these belong to.  This module says what
follows where terms are nested, for the default marker.

* `MarkedLiteral.resolveInverse_clause` : the arguments of a marked literal are exchanged if none of
  them has a parenthesis.  Otherwise the list is cut at a parenthesis inside of an argument, and what
  is exchanged are not two terms.
* `canonicalize_marker_in_list` : a marker inside of an argument is refused if a parenthesis is closed
  before another one is opened.

Neither condition can be dropped: `MarkedLiteral.resolveInverse_clause_regrouped` and
`canonicalize_marker_in_list_consumed` have clauses that come out with other terms than they had.
-/

namespace MinedRules

/-! ### Arguments -/

/-- A text that can stand as one argument: its parentheses are balanced, and every comma in it is
inside of some. -/
structure IsArgument (t : Text) : Prop where
  balanced : Balanced t
  commas : ∀ u v, t = u ++ ',' :: v → u.count ')' < u.count '('

variable {t : Text}

theorem Balanced.exists_first_close (h : Balanced t) (hclose : ')' ∈ t) :
    ∃ a b, t = a ++ ')' :: b ∧ ')' ∉ a ∧ '(' ∈ a := by
  obtain ⟨a, b, rfl, ha⟩ := List.eq_append_cons_of_mem hclose
  have hprefix := h.1 (a ++ [')']) ⟨b, by simp⟩
  rw [List.count_append, List.count_append, List.count_eq_zero_of_not_mem ha] at hprefix
  exact ⟨a, b, rfl, ha, by simpa [List.count_singleton] using hprefix⟩

theorem Balanced.close_mem_iff (h : Balanced t) : ')' ∈ t ↔ '(' ∈ t := by
  rw [← List.count_pos_iff, ← List.count_pos_iff, h.2]

theorem IsArgument.not_mem (h : IsArgument t) (hopen : '(' ∉ t) : ')' ∉ t ∧ ',' ∉ t := by
  refine ⟨fun hclose => hopen (h.balanced.close_mem_iff.1 hclose), fun hcomma => ?_⟩
  obtain ⟨u, v, rfl⟩ := List.append_of_mem hcomma
  have hlt := h.commas u v rfl
  have hu : u.count '(' = 0 := List.count_eq_zero_of_not_mem fun hu => hopen (by simp [hu])
  omega

theorem isArgument_of_flat (h : ∀ c ∈ t, c ≠ '(' ∧ c ≠ ')' ∧ c ≠ ',') : IsArgument t := by
  have hcloses := closesFrom_of_no_paren fun c hc => ⟨(h c hc).1, (h c hc).2.1⟩
  refine ⟨closesFrom_zero_iff.1 hcloses, ?_⟩
  rintro u v rfl
  exact absurd rfl (h ',' (by simp)).2.2

theorem isArgument_term {name inner : Text} (hname : ∀ c ∈ name, c ≠ '(' ∧ c ≠ ')' ∧ c ≠ ',')
    (hinner : Balanced inner) : IsArgument (name ++ '(' :: inner ++ [')']) := by
  have hcloses := closesFrom_of_no_paren fun c hc => ⟨(hname c hc).1, (hname c hc).2.1⟩
  refine ⟨closesFrom_zero_iff.1 ?_, fun u v huv => ?_⟩
  · rw [List.append_assoc]
    exact (closesFrom_append hcloses).2 (closesFrom_parens (closesFrom_zero_iff.2 hinner))
  · -- the comma stands behind the parenthesis that opens the list and before the one that ends it
    rw [List.append_assoc] at huv
    rcases List.append_eq_append_iff.1 huv with ⟨w, rfl, hw⟩ | ⟨w, rfl, hw⟩
    · obtain ⟨w, rfl, hin⟩ : ∃ q, w = '(' :: q ∧ inner ++ [')'] = q ++ ',' :: v := by
        cases w with
        | nil => simp at hw
        | cons c q => simpa [eq_comm] using hw
      have hprefix : w <+: inner := by
        have hw' : w ++ [','] <+: inner ++ [')'] := ⟨v, by simp [hin]⟩
        rcases List.prefix_concat_iff.1 hw' with heq | hprefix
        · simpa using (List.append_inj' heq rfl).2
        · exact (List.prefix_append _ _).trans hprefix
      have hcount := hinner.1 w hprefix
      have hclose : name.count ')' = 0 :=
        List.count_eq_zero_of_not_mem fun hc => (hname ')' hc).2.1 rfl
      simp only [List.count_append, List.count_cons_self,
        List.count_cons_of_ne (show '(' ≠ ')' by decide)]
      omega
    · cases w with
      | nil => simp at hw
      | cons c q =>
        obtain ⟨rfl, -⟩ := List.cons.inj hw
        exact absurd rfl (hname ',' (by simp)).2.2

/-! ### Marked literals -/

/-- The parts of a clause with one marked literal, which has two arguments. -/
structure MarkedLiteral where
  head : Text
  before : Text
  name : Text
  first : Text
  second : Text
  rest : Text

namespace MarkedLiteral

/-- The literal with what follows it. -/
def piece (l : MarkedLiteral) : Text := l.name ++ '(' :: l.first ++ ',' :: l.second ++ ')' :: l.rest

/-- The clause that has the literal behind the marker. -/
def clause (l : MarkedLiteral) : Text := l.head ++ neck ++ (l.before ++ inverseMarker ++ l.piece)

/-- The resolved clause with another text in place of the literal and what follows it. -/
def resolvedWith (l : MarkedLiteral) (swapped : Text) : Text :=
  Text.trimEnd l.head ++ spacedNeck ++ Text.trimStart (l.before ++ swapped)

/-- The clause with the arguments of the literal exchanged. -/
def resolved (l : MarkedLiteral) : Text :=
  l.resolvedWith (l.name ++ '(' :: Text.trim l.second ++ ',' :: Text.trim l.first ++ ')' :: l.rest)

/-- The marker stands in the body and only once, and before it there is no neck but that of the
clause. -/
structure WellFormed (l : MarkedLiteral) : Prop where
  head : ¬ neck <:+: l.head
  before : ¬ inverseMarker <:+: l.before
  name : (∀ c ∈ l.name, isParen c = false) ∧ ¬ inverseMarker <:+: l.name
  first : IsArgument l.first ∧ ¬ inverseMarker <:+: l.first
  second : IsArgument l.second ∧ ¬ inverseMarker <:+: l.second
  rest : ¬ inverseMarker <:+: l.rest

variable {l : MarkedLiteral} {c : Text}

theorem WellFormed.not_infix_piece (h : l.WellFormed) : ¬ inverseMarker <:+: l.piece := by
  intro hin
  -- the signs of the literal are not in the marker, so it would be in one of the parts
  have hparts : l.piece = l.name ++ '(' :: (l.first ++ ',' :: (l.second ++ ')' :: l.rest)) := by
    simp [MarkedLiteral.piece]
  rw [hparts] at hin
  rcases Text.infix_of_infix_append_cons (by decide) hin with hin | hin
  · exact h.name.2 hin
  rcases Text.infix_of_infix_append_cons (by decide) hin with hin | hin
  · exact h.first.2 hin
  rcases Text.infix_of_infix_append_cons (by decide) hin with hin | hin
  · exact h.second.2 hin
  · exact h.rest hin

theorem WellFormed.resolveInverse_eq_ok_iff (h : l.WellFormed) :
    resolveInverse inverseMarker l.clause = .ok c ↔
      ∃ swapped, swapArguments inverseMarker l.piece = .ok swapped ∧ c = l.resolvedWith swapped := by
  have hhead : Text.Clear neck l.head := Text.clear_of_not_infix (by decide) h.head
  have hcut : Text.cut? neck l.clause = some (l.head, l.before ++ inverseMarker ++ l.piece) :=
    Text.cut?_append (by decide) hhead
  have hbefore : Text.Clear inverseMarker l.before :=
    Text.clear_of_not_infix (by decide) h.before
  have hsplit : Text.split inverseMarker (l.before ++ inverseMarker ++ l.piece) =
      [l.before, l.piece] := by
    rw [Text.split_append (by decide) hbefore, Text.split_of_not_infix (by decide) h.not_infix_piece]
  rw [MinedRules.resolveInverse_eq_ok_iff]
  constructor
  · rintro ⟨head, body, piece, pieces, swapped, hcut', hsplit', hall, rfl⟩
    obtain ⟨rfl, rfl⟩ := Prod.mk.inj (Option.some.inj (hcut.symm.trans hcut'))
    obtain ⟨rfl, rfl⟩ := List.cons.inj (hsplit.symm.trans hsplit')
    obtain ⟨q, hq, rfl⟩ : ∃ q, swapArguments inverseMarker l.piece = .ok q ∧ swapped = [q] := by
      cases hall with
      | cons hq hall =>
        cases hall
        exact ⟨_, hq, rfl⟩
    exact ⟨q, hq, by simp [resolvedWith, spacedNeck]⟩
  · rintro ⟨swapped, hswapped, rfl⟩
    exact ⟨l.head, _, l.before, [l.piece], [swapped], hcut, hsplit, .cons hswapped .nil,
      by simp [resolvedWith, spacedNeck]⟩

/-- If an argument has parentheses, the list that is found ends inside of this argument. -/
theorem WellFormed.ofText?_piece (h : l.WellFormed) (hopen : '(' ∈ l.first ∨ '(' ∈ l.second) :
    ∃ args rest, Application.ofText? l.piece = some ⟨l.name, args, rest⟩ ∧ '(' ∈ args := by
  by_cases hfirst : '(' ∈ l.first
  · have hbal := h.first.1.balanced
    obtain ⟨a, b, hab, hclose, ha⟩ := hbal.exists_first_close (hbal.close_mem_iff.2 hfirst)
    refine ⟨a, b ++ ',' :: l.second ++ ')' :: l.rest, ?_, ha⟩
    exact Application.ofText?_eq_some_iff.2 ⟨by simp [piece, hab], h.name.1, hclose⟩
  · have hbal := h.second.1.balanced
    obtain ⟨a, b, hab, hclose, ha⟩ :=
      hbal.exists_first_close (hbal.close_mem_iff.2 (hopen.resolve_left hfirst))
    refine ⟨l.first ++ ',' :: a, b ++ ')' :: l.rest, ?_, by simp [ha]⟩
    have hno : ')' ∉ l.first ++ ',' :: a := by simp [hclose, (h.first.1.not_mem hfirst).1]
    exact Application.ofText?_eq_some_iff.2 ⟨by simp [piece, hab], h.name.1, hno⟩

/-- **What becomes of a marked literal.**  If no argument has a parenthesis its arguments are
exchanged.  If one has, then in place of the literal either an error comes out or parts `u` and `v`
of its text are exchanged that are not both balanced. -/
theorem resolveInverse_clause (l : MarkedLiteral) (h : l.WellFormed) :
    ('(' ∉ l.first → '(' ∉ l.second →
      resolveInverse inverseMarker l.clause = .ok l.resolved) ∧
    ('(' ∈ l.first ∨ '(' ∈ l.second → ∀ c, resolveInverse inverseMarker l.clause = .ok c →
      ∃ u v w, l.piece = l.name ++ '(' :: u ++ ',' :: v ++ ')' :: w ∧ ¬ (Balanced u ∧ Balanced v) ∧
        c = l.resolvedWith (exchanged l.name u v w)) := by
  constructor
  · intro hfirst hsecond
    have hpair : IsPair l.piece l.name l.first l.second l.rest :=
      ⟨rfl, h.name.1, h.first.1.not_mem hfirst, h.second.1.not_mem hsecond⟩
    exact h.resolveInverse_eq_ok_iff.2 ⟨_, swapArguments_eq_ok_iff.2 ⟨_, _, _, _, hpair, rfl⟩, rfl⟩
  · intro hopen c hc
    obtain ⟨swapped, hswap, rfl⟩ := h.resolveInverse_eq_ok_iff.1 hc
    obtain ⟨name, u, v, w, hpair, rfl⟩ := swapArguments_eq_ok_iff.1 hswap
    obtain ⟨args, rest, hargs, hmem⟩ := h.ofText?_piece hopen
    have happ : Application.ofText? l.piece = some ⟨name, u ++ ',' :: v, w⟩ :=
      Application.ofText?_eq_some_iff.2
        ⟨by simp [hpair.text], hpair.name, by simp [hpair.first.1, hpair.second.1]⟩
    obtain ⟨rfl, rfl, rfl⟩ : l.name = name ∧ args = u ++ ',' :: v ∧ rest = w := by
      simpa using hargs.symm.trans happ
    refine ⟨u, v, _, hpair.text, ?_, rfl⟩
    rintro ⟨hu, hv⟩
    -- the opening parenthesis is in `u` or `v`, and no closing one is
    simp only [List.mem_append, List.mem_cons, Char.reduceEq, false_or] at hmem
    rcases hmem with hmem | hmem
    · exact hpair.first.1 (hu.close_mem_iff.2 hmem)
    · exact hpair.second.1 (hv.close_mem_iff.2 hmem)

/-- A nested term outside of the list does no harm. -/
theorem resolveInverse_clause_flat :
    let l : MarkedLiteral := ⟨"p(X) ".toList, " q(f(X)) , ".toList, "r".toList, "X".toList,
      " Y".toList, ".".toList⟩
    l.WellFormed ∧ '(' ∉ l.first ∧ '(' ∉ l.second ∧
      resolveInverse inverseMarker l.clause = .ok l.resolved := by
  intro l
  have hfirst : IsArgument l.first := isArgument_of_flat (by simp [l])
  have hsecond : IsArgument l.second := isArgument_of_flat (by simp [l])
  have h : l.WellFormed := ⟨by decide, by decide, ⟨by simp [l, isParen], by decide⟩, ⟨hfirst, by decide⟩,
    ⟨hsecond, by decide⟩, by decide⟩
  have hflat : '(' ∉ l.first ∧ '(' ∉ l.second := by decide
  exact ⟨h, hflat.1, hflat.2, (resolveInverse_clause l h).1 hflat.1 hflat.2⟩

/-- **A marked literal can come out with other terms than it had**: the two arguments `f(A,B)` and `C`
of this one become the three `B`, `f(A)` and `C`. -/
theorem resolveInverse_clause_regrouped :
    let l : MarkedLiteral := ⟨"p(X) ".toList, " ".toList, "r".toList, "f(A,B)".toList, "C".toList,
      ".".toList⟩
    l.WellFormed ∧ resolveInverse inverseMarker l.clause = .ok "p(X) :- r(B,f(A),C).".toList ∧
      l.resolved = "p(X) :- r(C,f(A,B)).".toList := by
  intro l
  have hinner : Balanced "A,B".toList := closesFrom_zero_iff.1 (closesFrom_of_no_paren (by simp))
  have hname : ∀ c ∈ "f".toList, c ≠ '(' ∧ c ≠ ')' ∧ c ≠ ',' := by simp
  have hfirst : IsArgument l.first := isArgument_term hname hinner
  have hsecond : IsArgument l.second := isArgument_of_flat (by simp [l])
  have h : l.WellFormed := ⟨by decide, by decide, ⟨by simp [l, isParen], by decide⟩, ⟨hfirst, by decide⟩,
    ⟨hsecond, by decide⟩, by decide⟩
  exact ⟨h, by decide, by decide⟩

end MarkedLiteral

/-! ### Markers inside of arguments -/

theorem IsPair.find?_append {piece name first second rest t : Text}
    (h : IsPair piece name first second rest) : (piece ++ t).find? isParen = some '(' := by
  have hname : name.find? isParen = none := by simpa using h.name
  simp [h.text, List.find?_append, hname, isParen]

variable {head before after m c : Text}

/-- If the first parenthesis after a marker in the body is a closing one, there is no argument list
after this marker. -/
theorem resolveInverse_ne_ok (hcut : Text.cut? neck m = some (head, before ++ inverseMarker ++ after))
    (hafter : after.find? isParen = some ')') : resolveInverse inverseMarker m ≠ .ok c := by
  intro h
  obtain ⟨head', body, piece, pieces, swapped, hcut', hsplit, hall, -⟩ := resolveInverse_eq_ok_iff.1 h
  obtain ⟨rfl, rfl⟩ := Prod.mk.inj (Option.some.inj (hcut.symm.trans hcut'))
  have hne : inverseMarker ≠ [] := by decide
  -- the piece after this marker is one of those that are swapped
  obtain ⟨first, firsts, hfirst⟩ := List.exists_cons_of_ne_nil (Text.split_ne_nil inverseMarker before)
  obtain ⟨next, others, hnext⟩ := List.exists_cons_of_ne_nil (Text.split_ne_nil inverseMarker after)
  have happend : Text.split inverseMarker (before ++ inverseMarker ++ after) =
      Text.split inverseMarker before ++ Text.split inverseMarker after :=
    Text.split_append_pattern (by decide) before after
  have hmem : next ∈ pieces := by
    have hpieces : first :: firsts ++ next :: others = piece :: pieces := by
      rw [← hfirst, ← hnext, ← hsplit]
      exact happend.symm
    obtain ⟨-, rfl⟩ := List.cons.inj hpieces
    simp
  obtain ⟨q, hq⟩ : ∃ q, swapArguments inverseMarker next = .ok q := by
    obtain ⟨i, hi, rfl⟩ := List.getElem_of_mem hmem
    exact ⟨_, (List.forall₂_iff_get.1 hall).2 i hi (by rw [← hall.length_eq]; exact hi)⟩
  obtain ⟨name, u, v, rest, hpair, -⟩ := swapArguments_eq_ok_iff.1 hq
  obtain ⟨t, rfl⟩ := Text.prefix_of_split hne hnext
  rw [hpair.find?_append] at hafter
  exact absurd hafter (by decide)

/-- **A marker inside of an argument is refused if a parenthesis is closed before another one is
opened.** -/
theorem canonicalize_marker_in_list {strips : Bool} {rule : Text}
    (hm : markVariables (({} : Connectives).toClause rule) = .ok m) (hfact : isFact m = false)
    (hcut : Text.cut? neck m = some (head, before ++ inverseMarker ++ after))
    (hafter : after.find? isParen = some ')') :
    ∃ e, ({ stripsTypes := strips } : Canonicalizer).canonicalize rule = .error e := by
  cases hr : resolveInverse inverseMarker m with
  | ok c => exact absurd hr (resolveInverse_ne_ok hcut hafter)
  | error e =>
    refine ⟨e, ?_⟩
    have hr' : resolveInverse ['I', 'N', 'V'] m = .error e := hr
    rw [Canonicalizer.canonicalize, hm]
    simp only [hfact, hr', Bool.false_eq_true, if_false]

/-- The marker may be an uppercase form, and what comes before it in the argument is no matter. -/
theorem canonicalize_marker_in_list_constant :
    let rule := "p(x) <- q(f(y),re_invoice) ∧ r(a,b)".toList
    let m := "p(X) :- q(F(Y),RE_INVOICE) , r(A,B).".toList
    markVariables (({} : Connectives).toClause rule) = .ok m ∧ isFact m = false ∧
      ∃ e, ({ stripsTypes := true } : Canonicalizer).canonicalize rule = .error e := by
  intro rule m
  have hm : markVariables (({} : Connectives).toClause rule) = .ok m := by decide +kernel
  have hfact : isFact m = false := by decide +kernel
  have hcut : Text.cut? neck m = some ("p(X) ".toList,
      " q(F(Y),RE_".toList ++ inverseMarker ++ "OICE) , r(A,B).".toList) := by decide +kernel
  exact ⟨hm, hfact, canonicalize_marker_in_list hm hfact hcut (by decide)⟩

/-- **A marker inside of an argument can be taken for the mark of a later term**: it is cut out of the
constant, and the arguments of the term are exchanged. -/
theorem canonicalize_marker_in_list_consumed :
    let rule := "p(x) <- q(invoice,r(a,b))".toList
    let m := "p(X) :- q(INVOICE,R(A,B)).".toList
    let before := " q(".toList
    markVariables (({} : Connectives).toClause rule) = .ok m ∧
      Text.cut? neck m = some ("p(X) ".toList, before ++ inverseMarker ++ "OICE,R(A,B)).".toList) ∧
      before.count ')' < before.count '(' ∧
      ({} : Canonicalizer).canonicalize rule = .ok (some "p(X) :- q(OICE,R(B,A)).".toList) := by
  intro rule m before
  refine ⟨?_, ?_, ?_, ?_⟩ <;> decide +kernel

end MinedRules
