import MinedRules.Proofs.Rule.EmptyBody
import MinedRules.Proofs.Rule.Translation
import MinedRules.Proofs.Text.Layers
import MinedRules.Proofs.Text.Replacement
import Mathlib.Data.List.DropRight

/-!
# Dangling conjunctions

The clause of a rule is trimmed of white space, then of commas, then of white space once more, each in
one pass (`toClause_eq`).  So of the conjunctions at the end of a rule one run is dropped (`IsOneRun`),
and whether all of them are depends on the white space between them.

* `toClause_append` : a rule and what dangles at its end are trimmed independently of each other.
* `endsInConjunction_canonicalize_iff` : the later stages do not change whether a clause ends in a
  conjunction.
* `canonicalize_dangling_body_iff` : rules with nothing but conjunctions in their bodies.
* `canonicalize_dangling` : what becomes of dangling conjunctions.
* `canonicalize_dangling_stays` : a conjunction that is left at the end of a clause.
-/

namespace MinedRules

/-- A conjunction, written as a symbol or as an operator already. -/
def isConjunction (c : Char) : Bool := c == '∧' || c == ','

/-- White space or a conjunction. -/
def isDangling (c : Char) : Bool := isBlank c || isConjunction c

/-- White space, conjunctions side by side, and white space. -/
def IsOneRun (t : Text) : Prop := Text.Layered [isBlank, isConjunction, isBlank] t

instance : DecidablePred IsOneRun := fun t =>
  inferInstanceAs (Decidable (Text.Layered [isBlank, isConjunction, isBlank] t))

/-- The white space and the conjunctions at the end of a rule. -/
def trailing (rule : Text) : Text := rule.rtakeWhile isDangling

/-- White space apart, the text ends with a comma and a full stop. -/
def EndsInConjunction (t : Text) : Prop := [',', '.'] <:+ Text.compact t

instance : DecidablePred EndsInConjunction := fun t =>
  inferInstanceAs (Decidable ([',', '.'] <:+ Text.compact t))

/-- The classes that are trimmed when a rule is made a clause. -/
def edgeClasses : List (Char → Bool) := [isBlank, (· == ','), isBlank]

/-- What trimming leaves at the end of a text. -/
def leftover (t : Text) : Text := (Text.dropEach edgeClasses t.reverse).reverse

variable {t core tail : Text}

theorem isDangling_hyphen : isDangling '-' = false := rfl

theorem append_trailing (rule : Text) : rule.rdropWhile isDangling ++ trailing rule = rule :=
  List.rdropWhile_append_rtakeWhile

theorem isDangling_of_mem_trailing (rule : Text) : ∀ c ∈ trailing rule, isDangling c = true :=
  fun _ hc => List.mem_rtakeWhile_imp hc

theorem not_isDangling_of_getLast? (rule : Text) :
    ∀ c ∈ (rule.rdropWhile isDangling).getLast?, isDangling c = false := by
  rw [List.rdropWhile, List.getLast?_reverse]
  exact Text.head?_dropWhile isDangling _

theorem trailing_append (hcore : ∀ c ∈ core.getLast?, isDangling c = false)
    (htail : ∀ c ∈ tail, isDangling c = true) : trailing (core ++ tail) = tail := by
  have hcore' : ∀ c ∈ core.reverse.head?, isDangling c = false := by rwa [List.head?_reverse]
  have htail' : ∀ c ∈ tail.reverse, isDangling c = true := by simpa using htail
  rw [trailing, List.rtakeWhile, List.reverse_append, Text.takeWhile_append_of_stop htail' hcore',
    List.reverse_reverse]

theorem not_isDangling_hyphen (head : Text) :
    ∀ c ∈ (head ++ ['<', '-']).getLast?, isDangling c = false := by
  simp [isDangling_hyphen]

theorem leftover_sublist (t : Text) : (leftover t).Sublist t := by
  have h := (Text.dropEach_sublist edgeClasses t.reverse).reverse
  rwa [List.reverse_reverse] at h

theorem isBlank_of_leftover (t : Text) : ∀ c ∈ (leftover t).getLast?, isBlank c = false := by
  rw [leftover, List.getLast?_reverse]
  exact Text.head?_dropWhile isBlank _

theorem toClause_eq (symbols : Connectives) (rule : Text) :
    symbols.toClause rule = Text.trimEach edgeClasses (symbols.replace rule) ++ ['.'] := by
  simp only [Connectives.toClause, Text.trim, edgeClasses, Text.trimEach_cons, Text.trimEach_nil]

/-! ### Operators for what dangles -/

theorem isBlank_operatorOf (c : Char) : isBlank (operatorOf c) = isBlank c := by
  by_cases h1 : c = '∧'
  · subst h1
    decide
  · by_cases h2 : c = '∨'
    · subst h2
      decide
    · simp only [operatorOf, if_neg h1, if_neg h2]

theorem operatorOf_beq_comma (c : Char) : (operatorOf c == ',') = isConjunction c := by
  by_cases h1 : c = '∧'
  · subst h1
    decide
  · by_cases h2 : c = '∨'
    · subst h2
      decide
    · simp [operatorOf, isConjunction, h1, h2]

theorem edgeClasses_of_not_dangling {c : Char} (h : isDangling c = false) :
    ∀ p ∈ edgeClasses, p (operatorOf c) = false := by
  rw [isDangling, Bool.or_eq_false_iff, ← isBlank_operatorOf, ← operatorOf_beq_comma] at h
  simp [edgeClasses, h]

theorem edgeClasses_operatorOf :
    edgeClasses.map (· ∘ operatorOf) = [isBlank, isConjunction, isBlank] := by
  have hblank : isBlank ∘ operatorOf = isBlank := funext isBlank_operatorOf
  have hcomma : (· == ',') ∘ operatorOf = isConjunction := funext operatorOf_beq_comma
  rw [edgeClasses, List.map_cons, List.map_cons, List.map_cons, hblank, hcomma, List.map_nil]

theorem isOneRun_iff_reverse : IsOneRun tail ↔ IsOneRun tail.reverse :=
  ⟨Text.Layered.reverse, fun h => tail.reverse_reverse ▸ Text.Layered.reverse h⟩

theorem layered_edgeClasses_iff :
    Text.Layered edgeClasses (tail.map operatorOf).reverse ↔ IsOneRun tail := by
  rw [← List.map_reverse, Text.layered_map_iff, edgeClasses_operatorOf, isOneRun_iff_reverse,
    IsOneRun]

theorem of_mem_map_operatorOf (htail : ∀ c ∈ tail, isDangling c = true) :
    ∀ d ∈ tail.map operatorOf, d = ',' ∨ isBlank d = true := by
  intro d hd
  obtain ⟨c, hc, rfl⟩ := List.mem_map.1 hd
  have hdangling := htail c hc
  rw [isDangling, ← isBlank_operatorOf, ← operatorOf_beq_comma, Bool.or_eq_true,
    beq_iff_eq] at hdangling
  exact hdangling.symm

/-! ### Rules with something that dangles -/

section Parts

variable (hcore : ∀ c ∈ core.getLast?, isDangling c = false)
  (htail : ∀ c ∈ tail, isDangling c = true)

include htail in
theorem replace_append_dangling (core : Text) : ({} : Connectives).replace (core ++ tail) =
    ({} : Connectives).replace core ++ tail.map operatorOf := by
  have hno : ∀ c ∈ tail, c ∉ ['<', '-'] := by
    intro c hc hmem
    have hdangling := htail c hc
    rcases List.mem_pair.1 hmem with rfl | rfl <;> exact absurd hdangling (by decide)
  rw [replace_default, replace_default, Text.replace_append_of_disjoint (by decide) hno,
    List.map_append]

include hcore in
theorem edgeClasses_of_mem_getLast? :
    ∀ c ∈ (({} : Connectives).replace core).getLast?, ∀ p ∈ edgeClasses, p c = false := by
  rw [replace_default, List.getLast?_map]
  intro c hc
  obtain ⟨d, hd, rfl⟩ := Option.mem_map.1 hc
  exact edgeClasses_of_not_dangling
    (Text.getLast?_replace (by decide) (by decide) (by simp [neck, isDangling_hyphen]) hcore d hd)

include hcore htail in
/-- **What dangles in one run is dropped.** -/
theorem toClause_append_of_isOneRun (h : IsOneRun tail) :
    ({} : Connectives).toClause (core ++ tail) = ({} : Connectives).toClause core := by
  rw [toClause_eq, toClause_eq, replace_append_dangling htail,
    Text.trimEach_append_of_layered (edgeClasses_of_mem_getLast? hcore)
      (layered_edgeClasses_iff.2 h)]

theorem leftover_eq_nil_iff : leftover (tail.map operatorOf) = [] ↔ IsOneRun tail := by
  rw [leftover, List.reverse_eq_nil_iff, ← Text.layered_iff, layered_edgeClasses_iff]

include htail in
theorem getLast?_leftover (h : ¬ IsOneRun tail) :
    (leftover (tail.map operatorOf)).getLast? = some ',' := by
  obtain ⟨u, c, hu⟩ :=
    (List.eq_nil_or_concat' _).resolve_left fun hnil => h (leftover_eq_nil_iff.1 hnil)
  have hmem : c ∈ tail.map operatorOf := (leftover_sublist _).subset (by simp [hu])
  have hblank : isBlank c = false :=
    isBlank_of_leftover (tail.map operatorOf) c (by rw [hu]; simp)
  rcases of_mem_map_operatorOf htail c hmem with rfl | hc
  · rw [hu, List.getLast?_concat]
  · exact absurd (hc.symm.trans hblank) (by decide)

include hcore htail in
theorem toClause_append (hne : core ≠ []) : ({} : Connectives).toClause (core ++ tail) =
    Text.trimEach edgeClasses (({} : Connectives).replace core) ++
      leftover (tail.map operatorOf) ++ ['.'] := by
  have hne' : ({} : Connectives).replace core ≠ [] := by
    rw [replace_default, ne_eq, List.map_eq_nil_iff]
    exact Text.replace_ne_nil (by decide) (by decide) hne
  rw [toClause_eq, replace_append_dangling htail,
    Text.trimEach_append_of_getLast? hne' (edgeClasses_of_mem_getLast? hcore), leftover]

end Parts

/-! ### Clauses that end in a conjunction -/

theorem singleton_suffix_iff {x : Char} : [x] <:+ t ↔ t.getLast? = some x :=
  (List.getLast?_eq_some_iff.trans (exists_congr fun _ => eq_comm)).symm

theorem endsInConjunction_concat_iff (h : ∀ c ∈ t.getLast?, isBlank c = false) :
    EndsInConjunction (t ++ ['.']) ↔ t.getLast? = some ',' := by
  have hpair : [',', '.'] = [','] ++ ['.'] := rfl
  rw [EndsInConjunction, Text.compact_concat (by decide), hpair, List.suffix_append_self_iff,
    singleton_suffix_iff]
  rcases List.eq_nil_or_concat' t with rfl | ⟨u, c, rfl⟩
  · rfl
  · rw [Text.compact_concat (h c (by simp)), List.getLast?_concat, List.getLast?_concat]

theorem endsInConjunction_toClause_iff (hcore : ∀ c ∈ core.getLast?, isDangling c = false)
    (htail : ∀ c ∈ tail, isDangling c = true) (hne : core ≠ []) :
    EndsInConjunction (({} : Connectives).toClause (core ++ tail)) ↔ ¬ IsOneRun tail := by
  rw [toClause_append hcore htail hne]
  have hends := edgeClasses_of_mem_getLast? hcore
  by_cases hrun : IsOneRun tail
  · -- the clause ends like the rule in front of the run
    rw [leftover_eq_nil_iff.2 hrun, List.append_nil, endsInConjunction_concat_iff,
      Text.getLast?_trimEach hends]
    · refine iff_of_false (fun hcomma => ?_) (not_not_intro hrun)
      have := hends ',' hcomma (· == ',') (by simp [edgeClasses])
      exact absurd this (by decide)
    · rw [Text.getLast?_trimEach hends]
      exact fun c hc => hends c hc isBlank (by simp [edgeClasses])
  · have hlast := getLast?_leftover htail hrun
    have hne' : leftover (tail.map operatorOf) ≠ [] := fun hnil => by simp [hnil] at hlast
    rw [endsInConjunction_concat_iff, List.getLast?_append_of_ne_nil _ hne']
    · exact iff_of_true hlast hrun
    · rw [List.getLast?_append_of_ne_nil _ hne', hlast]
      simp [isBlank]

/-- Two texts with a long enough ending in common have the same short endings. -/
theorem suffix_iff_of_common {s w a b : Text} (ha : w <:+ a) (hb : w <:+ b)
    (hlength : s.length ≤ w.length) : s <:+ a ↔ s <:+ b :=
  ⟨fun h => (List.suffix_of_suffix_length_le h ha hlength).trans hb,
    fun h => (List.suffix_of_suffix_length_le h hb hlength).trans ha⟩

/-- Resolving the markers of a clause does not change whether it ends in a conjunction. -/
theorem endsInConjunction_resolveInverse_iff {marker m c : Text} (hmarker : marker ≠ [])
    (h : resolveInverse marker m = .ok c) (hlast : m.getLast? = some '.') :
    EndsInConjunction c ↔ EndsInConjunction m := by
  rcases compact_resolveInverse hmarker h with heq | ⟨rest, hm, hc⟩
  · rw [EndsInConjunction, EndsInConjunction, heq]
  · -- the common ending holds the full stop and a parenthesis before it
    have hrest : rest ≠ [] := by
      rintro rfl
      obtain ⟨u, rfl⟩ := List.getLast?_eq_some_iff.1 hlast
      rw [Text.compact_concat (by decide), singleton_suffix_iff, List.getLast?_concat] at hm
      exact absurd hm (by decide)
    refine suffix_iff_of_common hc hm ?_
    have := List.length_pos_of_ne_nil hrest
    simp only [List.length_cons, List.length_nil]
    omega

theorem endsInConjunction_canonicalize_iff {k : Canonicalizer} {rule c : Text}
    (hstrip : k.stripsTypes = false) (hmarker : k.marker ≠ [])
    (h : k.canonicalize rule = .ok (some c)) :
    EndsInConjunction c ↔ EndsInConjunction (k.connectives.toClause rule) := by
  obtain ⟨m, resolved, hm, -, hres, hc⟩ := Canonicalizer.canonicalize_eq_ok_some_iff.1 h
  obtain rfl : resolved = c := by simpa [hstrip] using hc
  rw [endsInConjunction_resolveInverse_iff hmarker hres (getLast?_marked hm),
    (markVariables_eq_ok_iff.1 hm).2]
  exact suffix_compact_uppercaseFrom_iff (by simp) 0 _

theorem canonicalize_ne_of_no_colon {k : Canonicalizer} {rule : Text}
    (h : ∀ d ∈ k.connectives.toClause rule, d ≠ '(' ∧ d ≠ ')' ∧ d ≠ ':') (c : Text) :
    k.canonicalize rule ≠ .ok (some c) := by
  intro hok
  obtain ⟨m, resolved, hm, -, hres, -⟩ := Canonicalizer.canonicalize_eq_ok_some_iff.1 hok
  obtain ⟨head, body, _, _, _, hcut, -⟩ := resolveInverse_eq_ok_iff.1 hres
  -- marking changes nothing outside of parentheses
  rw [(markVariables_eq_ok_iff.1 hm).2,
    uppercaseFrom_of_no_paren fun d hd => ⟨(h d hd).1, (h d hd).2.1⟩, if_pos rfl] at hcut
  have hcolon : ':' ∈ k.connectives.toClause rule := by
    rw [Text.cut?_eq_some hcut]
    simp [neck]
  exact (h ':' hcolon).2.2 rfl

theorem canonicalize_dangling_ne (htail : ∀ c ∈ tail, isDangling c = true) (c : Text) :
    ({} : Canonicalizer).canonicalize tail ≠ .ok (some c) := by
  refine canonicalize_ne_of_no_colon (fun d hd => ?_) c
  have hmem : d = '.' ∨ d = ',' ∨ isBlank d = true := by
    rw [toClause_eq, List.mem_append] at hd
    rcases hd with hd | hd
    · have happend : ({} : Connectives).replace tail = tail.map operatorOf :=
        replace_append_dangling htail []
      exact .inr (of_mem_map_operatorOf htail d (happend ▸ (Text.trimEach_sublist _ _).subset hd))
    · exact .inl (by simpa using hd)
  rcases hmem with rfl | rfl | hblank
  · decide
  · decide
  · refine ⟨?_, ?_, ?_⟩ <;> rintro rfl <;> exact absurd hblank (by decide)

theorem filter_isParen_toClause (rule : Text) :
    (({} : Connectives).toClause rule).filter isParen = rule.filter isParen := by
  have hedges : ∀ p ∈ edgeClasses, ∀ c, p c = true → isParen c = false := by
    simpa [edgeClasses] using ⟨isParen_of_isBlank, rfl, isParen_of_isBlank⟩
  rw [toClause_eq, List.filter_append, Text.filter_trimEach hedges, Connectives.replace,
    Text.filter_replace (by decide) (by decide) (by decide),
    Text.filter_replace (by decide) (by decide) (by decide),
    Text.filter_replace (by decide) (by decide) (by decide)]
  exact List.append_nil _

theorem toClause_dangling_body (head : Text) {body : Text}
    (hbody : ∀ c ∈ body, isDangling c = true) :
    ({} : Connectives).toClause (head ++ ['<', '-'] ++ body) =
      Text.dropEach edgeClasses (({} : Connectives).replace head) ++ neck ++
        (leftover (body.map operatorOf) ++ ['.']) := by
  have hreplace : ({} : Connectives).replace (head ++ ['<', '-']) =
      ({} : Connectives).replace head ++ neck := by
    rw [replace_default, replace_default, Text.replace_concat_pattern (by decide), List.map_append]
    rfl
  rw [toClause_append (not_isDangling_hyphen head) hbody (by simp), hreplace,
    Text.trimEach_append_core (by decide) (by simp [neck, edgeClasses, isBlank])
      (by simp [neck, edgeClasses, isBlank]), List.append_assoc]

/-! ### Dangling conjunctions -/

theorem canonicalize_dangling_body_iff {head body : Text} (hbal : Balanced head)
    (hbody : ∀ c ∈ body, isDangling c = true) :
    ({} : Canonicalizer).canonicalize (head ++ ['<', '-'] ++ body) = .ok none ↔ IsOneRun body := by
  have hbal' : Balanced (({} : Connectives).toClause (head ++ ['<', '-'] ++ body)) := by
    refine (balanced_congr ?_).2 hbal
    have hnil : body.filter isParen = [] := by
      refine List.filter_eq_nil_iff.2 fun c hc hparen => ?_
      have hdangling := hbody c hc
      simp only [isParen, Bool.or_eq_true, beq_iff_eq] at hparen
      rcases hparen with rfl | rfl <;> exact absurd hdangling (by decide)
    rw [filter_isParen_toClause, List.filter_append, List.filter_append, hnil]
    simp [isParen]
  have hclause := toClause_dangling_body head hbody
  have hiff : ({} : Canonicalizer).canonicalize (head ++ ['<', '-'] ++ body) = .ok none ↔ _ :=
    Canonicalizer.canonicalize_eq_ok_none_iff_endsInNeck
  rw [and_iff_right hbal', hclause, endsInNeck_append_iff (by simp)] at hiff
  rw [hiff]
  by_cases hrun : IsOneRun body
  · rw [leftover_eq_nil_iff.2 hrun]
    exact iff_of_true (.inl rfl) hrun
  · -- the comma that is left stands in front of the full stop
    have hlast := getLast?_leftover hbody hrun
    have hcomma : EndsInConjunction (leftover (body.map operatorOf) ++ ['.']) :=
      (endsInConjunction_concat_iff (isBlank_of_leftover _)).2 hlast
    refine iff_of_false ?_ hrun
    rintro (hempty | hneck)
    · rw [EndsInConjunction, hempty] at hcomma
      exact absurd hcomma (by decide)
    · have hends : [',', '.'] <:+ neck ++ ['.'] :=
        List.suffix_of_suffix_length_le hcomma hneck (by decide)
      exact absurd hends (by decide)

/-- **Dangling conjunctions are dropped if they stand in one run.**  The clause of a rule ends in a
conjunction if and only if white space interrupts the conjunctions at the end of the rule; without such an
interruption the rule is read as if nothing dangled.  And if everything dangles behind an implication, the
rule is excluded as a fact if and only if there is no such interruption. -/
theorem canonicalize_dangling (rule : Text) :
    (∀ c, ({} : Canonicalizer).canonicalize rule = .ok (some c) →
      (EndsInConjunction c ↔ ¬ IsOneRun (trailing rule))) ∧
    (IsOneRun (trailing rule) → ({} : Canonicalizer).canonicalize rule =
      ({} : Canonicalizer).canonicalize (rule.rdropWhile isDangling)) ∧
    ∀ head body, rule = head ++ ['<', '-'] ++ body → Balanced head →
      (∀ c ∈ body, isDangling c = true) →
      (({} : Canonicalizer).canonicalize rule = .ok none ↔ IsOneRun (trailing rule)) := by
  refine ⟨fun c h => ?_, fun h => ?_, ?_⟩
  · rw [endsInConjunction_canonicalize_iff rfl (by decide) h]
    have hne : rule.rdropWhile isDangling ≠ [] := by
      intro hnil
      have hrule := append_trailing rule
      rw [hnil, List.nil_append] at hrule
      exact canonicalize_dangling_ne (hrule ▸ isDangling_of_mem_trailing rule) c h
    have hiff := endsInConjunction_toClause_iff (not_isDangling_of_getLast? rule)
      (isDangling_of_mem_trailing rule) hne
    rwa [append_trailing] at hiff
  · refine Canonicalizer.canonicalize_congr ?_
    have hclause := toClause_append_of_isOneRun (not_isDangling_of_getLast? rule)
      (isDangling_of_mem_trailing rule) h
    rwa [append_trailing] at hclause
  · rintro head body rfl hbal hbody
    rw [trailing_append (not_isDangling_hyphen head) hbody]
    exact canonicalize_dangling_body_iff hbal hbody

/-- Symbols and operators side by side are dropped; white space between two of them leaves one. -/
theorem canonicalize_dangling_samples :
    let rule := "p(x) <- q(x) ∧,∧ ".toList
    let rule' := "p(x) <- q(x) ∧ ∧".toList
    let c := "p(X) :- q(X) ,.".toList
    (IsOneRun (trailing rule) ∧ ({} : Canonicalizer).canonicalize rule =
      ({} : Canonicalizer).canonicalize "p(x) <- q(x)".toList) ∧
    (({} : Canonicalizer).canonicalize rule' = .ok (some c) ∧ EndsInConjunction c ∧
      ¬ IsOneRun (trailing rule')) ∧
    ({} : Canonicalizer).canonicalize ("p(x)".toList ++ ['<', '-'] ++ " ∧,".toList) = .ok none := by
  intro rule rule' c
  have hrun : IsOneRun (trailing rule) := by decide +kernel
  have hcore : rule.rdropWhile isDangling = "p(x) <- q(x)".toList := by decide +kernel
  have hc : ({} : Canonicalizer).canonicalize rule' = .ok (some c) := by decide +kernel
  have hruns : ¬ IsOneRun (trailing rule') := by decide +kernel
  have hbal : Balanced "p(x)".toList := parenPairs_isOk_iff.1 ⟨[(1, 3)], by decide +kernel⟩
  refine ⟨⟨hrun, ?_⟩, ⟨hc, ((canonicalize_dangling rule').1 c hc).2 hruns, hruns⟩, ?_⟩
  · rw [← hcore]
    exact (canonicalize_dangling rule).2.1 hrun
  · have hbody : ∀ c ∈ " ∧,".toList, isDangling c = true := List.all_eq_true.1 (by decide)
    exact ((canonicalize_dangling _).2.2 _ _ rfl hbal hbody).2 (by decide +kernel)

/-- **A conjunction can stay**: of several runs only the last one is dropped, and a rule without a literal
in its body has a clause then. -/
theorem canonicalize_dangling_stays :
    (({} : Canonicalizer).canonicalize "p(x) <- q(x) ∧ ∧".toList =
        .ok (some "p(X) :- q(X) ,.".toList) ∧ EndsInConjunction "p(X) :- q(X) ,.".toList) ∧
      Balanced "p(x) ".toList ∧ (∀ c ∈ " ∧ ∧".toList, isDangling c = true) ∧
      ({} : Canonicalizer).canonicalize ("p(x) ".toList ++ ['<', '-'] ++ " ∧ ∧".toList) =
        .ok (some "p(X) :- ,.".toList) := by
  have hbal : Balanced "p(x) ".toList := parenPairs_isOk_iff.1 ⟨[(1, 3)], by decide +kernel⟩
  exact ⟨⟨by decide +kernel, by decide +kernel⟩, hbal, List.all_eq_true.1 (by decide),
    by decide +kernel⟩

end MinedRules
