import MinedRules.Proofs.Rule.Depth
import MinedRules.Proofs.Rule.Exchange
import MinedRules.Proofs.Rule.Printed
import MinedRules.Proofs.Rule.Stages
import Mathlib.Data.List.Chain

/-!
# The translation of well-formed rules

The stages of `Canonicalizer.canonicalize`, one after the other, on a printed rule.

* `toClause_print` : the operators take the place of the symbols (`MinedRule.operated`).
* `markVariables_operated` : the arguments become variables (`MinedRule.marked`).
* `resolveInverse_marked` : the markers go, and the arguments behind them are exchanged
  (`MinedRule.clause`).
* `strip_clause` : there are no types to strip.
* `canonicalize_print` : **the canonical clause of a printed rule is its clause**, whether or not
  types are stripped.

What the stages search for never straddles the boundary of two literals, since every literal ends
with a parenthesis, and the neck, the operators and doubled parentheses contain signs, which words do
not.
-/

namespace MinedRules

namespace MinedRule

/-- The rule with operators for symbols. -/
def operated (r : MinedRule) : Text :=
  r.head.print ++ [' ', ':', '-', ' '] ++ r.first.print ++
    tail Link.operator BodyLiteral.print r.more

/-- The clause with variables for arguments, and with the markers. -/
def marked (r : MinedRule) : Text :=
  r.head.clause ++ [' ', ':', '-', ' '] ++ r.first.marking ++
    tail Link.operator BodyLiteral.marking r.more ++ ['.']

end MinedRule

/-! ### Operators for symbols -/

theorem not_infix_of_not_mem {pattern t : Text} {c : Char} (hc : c ∈ pattern) (h : c ∉ t) :
    ¬ pattern <:+: t :=
  fun hin => h (hin.subset hc)

theorem trimBy_of_ends {p : Char → Bool} {t : Text} (hp : ∀ c, isSign c = false → p c = false)
    (hclose : p ')' = false) (hhead : ∀ c ∈ t.head?, isSign c = false)
    (hlast : t.getLast? = some ')') : Text.trimBy p t = t := by
  exact Text.trimBy_eq_self (fun c hc => hp c (hhead c hc))
    (Text.forall_mem_of_eq_some hlast hclose)

theorem replace_char (x y : Char) (t : Text) :
    Text.replace [x] [y] t = t.map fun c => if c = x then y else c := by
  rw [Text.replace_singleton, List.map_eq_flatMap]
  refine List.flatMap_congr fun c _ => ?_
  split <;> rfl

/-- The operator for a symbol between literals; any other character stays. -/
def operatorOf (c : Char) : Char :=
  let d := if c = '∧' then ',' else c
  if d = '∨' then ';' else d

theorem replace_default (t : Text) :
    ({} : Connectives).replace t = (Text.replace ['<', '-'] neck t).map operatorOf := by
  rw [Connectives.replace, replace_char, replace_char, List.map_map]
  rfl

theorem operatorOf_symbol (l : Link) : operatorOf l.symbol = l.operator := by
  cases l <;> decide

theorem operatorOf_of_isInner {c : Char} (h : IsInner c) : operatorOf c = c := by
  have h1 : c ≠ '∧' := h.ne (by decide) (by decide)
  have h2 : c ≠ '∨' := h.ne (by decide) (by decide)
  simp only [operatorOf, if_neg h1, if_neg h2]

theorem map_operatorOf {t : Text} (h : ∀ c ∈ t, IsInner c) : t.map operatorOf = t :=
  map_eq_self fun c hc => operatorOf_of_isInner (h c hc)

namespace MinedRule

variable {r : MinedRule}

/-- The symbol of implication occurs once: no other part of the rule has its first character. -/
theorem replace_implication (h : r.WellFormed) : Text.replace ['<', '-'] neck r.print =
    r.head.print ++ [' ', ':', '-', ' '] ++ r.first.print ++
      tail Link.symbol BodyLiteral.print r.more := by
  have hno : ∀ {t : Text}, (∀ c ∈ t, IsInner c) → '<' ∉ t := fun ht hmem =>
    (ht _ hmem).ne (by decide) (by decide) rfl
  have hhead : ¬ ['<', '-'] <:+: r.head.print ++ [' '] := by
    refine not_infix_of_not_mem (c := '<') List.mem_cons_self ?_
    simp [hno r.head.isInner_print]
  have hbody : ¬ ['<', '-'] <:+: ' ' :: (r.first.print ++ tail Link.symbol BodyLiteral.print r.more) := by
    refine not_infix_of_not_mem (c := '<') List.mem_cons_self ?_
    have htail : '<' ∉ tail Link.symbol BodyLiteral.print r.more :=
      not_mem_tail (by decide) (fun l => by cases l <;> decide)
        fun p hp => hno (BodyLiteral.isInner_print (h.2 p hp))
    simp [hno (BodyLiteral.isInner_print h.1), htail]
  have hprint : r.print = (r.head.print ++ [' ']) ++ ['<', '-'] ++
      ' ' :: (r.first.print ++ tail Link.symbol BodyLiteral.print r.more) := by
    simp [print]
  rw [hprint, Text.replace_append (by simp) (Text.clear_of_not_infix (by decide) hhead),
    Text.replace_of_not_infix (by simp) hbody]
  simp [neck]

theorem replace_print (h : r.WellFormed) : ({} : Connectives).replace r.print = r.operated := by
  rw [replace_default, replace_implication h, List.map_append, List.map_append, List.map_append,
    map_operatorOf r.head.isInner_print, map_operatorOf (BodyLiteral.isInner_print h.1),
    map_tail (by decide) fun p hp => map_operatorOf (BodyLiteral.isInner_print (h.2 p hp))]
  simp only [operatorOf_symbol]
  rfl

theorem toClause_print (h : r.WellFormed) :
    ({} : Connectives).toClause r.print = r.operated ++ ['.'] := by
  have hhead : ∀ c ∈ r.operated.head?, isSign c = false := by
    rw [operated, List.append_assoc, List.append_assoc]
    exact r.head.head?_append _ _
  have hlast : r.operated.getLast? = some ')' := by
    refine getLast?_tail ?_ BodyLiteral.getLast?_print
    rw [List.getLast?_append, r.first.getLast?_print, Option.some_or]
  have htrim : Text.trim r.operated = r.operated :=
    trimBy_of_ends (fun c => isBlank_of_isSign) (by decide) hhead hlast
  have hcommas : Text.trimBy (· == ',') r.operated = r.operated :=
    trimBy_of_ends (beq_of_isSign (by decide)) (by decide) hhead hlast
  rw [Connectives.toClause, replace_print h, htrim, hcommas, htrim]

end MinedRule

/-! ### Variables for arguments -/

/-- The text closes what it opens, and with every character inside a parenthesis in uppercase it is
`s`. -/
def Marks (t s : Text) : Prop := ClosesFrom 0 t ∧ uppercaseFrom 0 t = s

theorem Marks.append {a b s u : Text} (ha : Marks a s) (hb : Marks b u) :
    Marks (a ++ b) (s ++ u) := by
  have hcloses : ClosesFrom (0 + 0) (a ++ b) := (closesFrom_append ha.1).2 hb.1
  have happend : uppercaseFrom (0 + 0) (a ++ b) = uppercaseFrom (0 + 0) a ++ uppercaseFrom 0 b :=
    uppercaseFrom_append ha.1
  exact ⟨hcloses, by rw [happend, ha.2, hb.2]⟩

theorem marks_of_no_paren {t : Text} (h : ∀ c ∈ t, c ≠ '(' ∧ c ≠ ')') : Marks t t :=
  ⟨closesFrom_of_no_paren h, by rw [uppercaseFrom_of_no_paren h, if_pos rfl]⟩

theorem IsPlain.no_paren {t : Text} (h : IsPlain t) : ∀ c ∈ t, c ≠ '(' ∧ c ≠ ')' :=
  fun _ hc => ⟨h.ne hc (by decide), h.ne hc (by decide)⟩

theorem marks_applied {name : Text} {args : List Text} (hname : IsPlain name)
    (hargs : ∀ w ∈ args, IsPlain w) :
    Marks (applied name args) (applied name (args.map (List.map uppercase))) := by
  have hlist : ∀ c ∈ List.intercalate [','] args, c ≠ '(' ∧ c ≠ ')' :=
    forall_mem_intercalate (by simp) fun w hw => (hargs w hw).no_paren
  have hspan : Marks ('(' :: List.intercalate [','] args ++ [')'])
      ('(' :: List.intercalate [','] (args.map (List.map uppercase)) ++ [')']) := by
    refine ⟨closesFrom_parens (closesFrom_of_no_paren hlist), ?_⟩
    rw [uppercaseFrom_append_singleton (by decide), uppercaseFrom, if_pos rfl,
      uppercaseFrom_of_no_paren hlist, if_neg (by decide), map_intercalate]
    simp [uppercase_of_isSign (c := ',') (by decide)]
  rw [applied, applied, List.append_assoc, List.append_assoc]
  exact (marks_of_no_paren hname.no_paren).append hspan

theorem marks_atom (a : Atom) : Marks a.print a.clause := by
  have hargs : a.args.map Word.upper = (a.args.map Word.text).map (List.map uppercase) := by
    rw [List.map_map]
    rfl
  rw [Atom.print, Atom.clause, hargs]
  exact marks_applied a.name.plain (isPlain_texts a.args)

theorem marks_literal {b : BodyLiteral} (h : b.WellFormed) : Marks b.print b.marking := by
  cases b with
  | plain a => exact marks_atom a
  | marked name first second =>
    refine (marks_of_no_paren isPlain_inverseMarker.no_paren).append ?_
    exact marks_applied h.1 (forall_mem_pair first.plain second.plain)

theorem marks_tail {more : List (Link × BodyLiteral)} (h : ∀ p ∈ more, p.2.WellFormed) :
    Marks (MinedRule.tail Link.operator BodyLiteral.print more)
      (MinedRule.tail Link.operator BodyLiteral.marking more) := by
  induction more with
  | nil => exact marks_of_no_paren (by simp [tail_nil])
  | cons p more ih =>
    rw [tail_cons, tail_cons]
    refine Marks.append (Marks.append (marks_of_no_paren ?_) ?_) ?_
    · cases p.1 <;> simp [Link.operator]
    · exact marks_literal (h p List.mem_cons_self)
    · exact ih fun q hq => h q (List.mem_cons_of_mem _ hq)

theorem MinedRule.markVariables_operated {r : MinedRule} (h : r.WellFormed) :
    markVariables (r.operated ++ ['.']) = .ok r.marked := by
  have hmarks : Marks (r.operated ++ ['.']) r.marked := by
    refine Marks.append (Marks.append (Marks.append (Marks.append ?_ ?_) ?_) ?_) ?_
    · exact marks_atom r.head
    · exact marks_of_no_paren (by simp)
    · exact marks_literal h.1
    · exact marks_tail h.2
    · exact marks_of_no_paren (by simp)
  exact markVariables_eq_ok_iff.2 ⟨closesFrom_zero_iff.1 hmarks.1, hmarks.2.symm⟩

theorem isFact_of_getLast? {t : Text} (h : t.getLast? = some ')') : isFact (t ++ ['.']) = false := by
  obtain ⟨front, rfl⟩ := List.getLast?_eq_some_iff.1 h
  have hcompact : Text.compact (front ++ [')'] ++ ['.']) = Text.compact front ++ [')', '.'] := by
    simp only [Text.compact, List.filter_append, List.append_assoc]
    rfl
  rw [isFact, hcompact, ← Bool.not_eq_true, List.isSuffixOf_iff_suffix]
  intro hsuffix
  -- of two endings of one text the shorter one is an ending of the other
  have hends : [':', '-', '.'] <:+ Text.compact front ++ [')', '.'] := hsuffix
  have hlast : [')', '.'] <:+ Text.compact front ++ [')', '.'] := List.suffix_append _ _
  have := List.suffix_of_suffix_length_le hlast hends (by decide)
  exact absurd this (by decide)

theorem MinedRule.isFact_marked (r : MinedRule) : isFact r.marked = false := by
  refine isFact_of_getLast? (getLast?_tail ?_ BodyLiteral.getLast?_marking)
  rw [List.getLast?_append, r.first.getLast?_marking, Option.some_or]

/-! ### Markers -/

/-- The pieces of `t` between markers make `s` when the arguments behind markers are exchanged. -/
def Resolves (t s : Text) : Prop :=
  ∃ piece pieces swapped, Text.split inverseMarker t = piece :: pieces ∧
    List.Forall₂ (fun p q => swapArguments inverseMarker p = .ok q) pieces swapped ∧
    s = piece ++ swapped.flatten

section Resolves

variable {t s u : Text}

theorem Resolves.append (h : Resolves t s) (hu : ¬ inverseMarker <:+: u)
    (hlast : ∀ c ∈ u.getLast?, c ∉ inverseMarker) : Resolves (u ++ t) (u ++ s) := by
  obtain ⟨piece, pieces, swapped, hsplit, hall, rfl⟩ := h
  refine ⟨u ++ piece, pieces, swapped, ?_, hall, ?_⟩
  · exact Text.split_append_of_end (by decide) hu hlast hsplit
  · rw [List.append_assoc]

theorem IsPlain.trim {w : Text} (h : IsPlain w) : Text.trim w = w :=
  Text.trimBy_eq_self (fun _ hc => h.not_blank (List.mem_of_mem_head? hc))
    fun _ hc => h.not_blank (List.mem_of_getLast? hc)

/-- A marker and the argument list behind it: the arguments are exchanged, what follows stays. -/
theorem Resolves.marked {name first second : Text} (h : Resolves t s) (hname : IsPlain name)
    (hfirst : IsPlain first) (hsecond : IsPlain second)
    (hno : ¬ inverseMarker <:+: applied name [first, second]) :
    Resolves (inverseMarker ++ applied name [first, second] ++ t)
      (applied name [second, first] ++ s) := by
  obtain ⟨piece, pieces, swapped, hsplit, hall, rfl⟩ := h
  have hlast : ∀ c ∈ (applied name [first, second]).getLast?, c ∉ inverseMarker :=
    Text.forall_mem_of_eq_some getLast?_applied (by decide)
  have hpair : IsPair (applied name [first, second] ++ piece) name first second piece := by
    refine ⟨?_, fun c hc => ?_, ?_, ?_⟩
    · simp [applied]
    · simp [isParen, hname.no_paren c hc]
    · exact ⟨hfirst.not_mem (by decide), hfirst.not_mem (by decide)⟩
    · exact ⟨hsecond.not_mem (by decide), hsecond.not_mem (by decide)⟩
  have hswap : swapArguments inverseMarker (applied name [first, second] ++ piece) =
      .ok (applied name [second, first] ++ piece) := by
    refine swapArguments_eq_ok_iff.2 ⟨_, _, _, _, hpair, ?_⟩
    rw [exchanged, hfirst.trim, hsecond.trim]
    simp [applied]
  -- the piece before the marker is empty
  refine ⟨[], _, _, ?_, .cons hswap hall, ?_⟩
  · rw [List.append_assoc, Text.split_pattern_append (by decide),
      Text.split_append_of_end (by decide) hno hlast hsplit]
  · simp

theorem Resolves.literal {b : BodyLiteral} (h : Resolves t s) (hb : b.WellFormed) :
    Resolves (b.marking ++ t) (b.clause ++ s) := by
  have hmarker : inverseMarker ≠ [] := by decide
  cases b with
  | plain a =>
    have hno : ¬ inverseMarker <:+: a.clause := by
      refine not_infix_applied hmarker isPlain_inverseMarker hb.1 fun w hw => ?_
      obtain ⟨word, hword, rfl⟩ := List.mem_map.1 hw
      exact hb.2 word hword
    exact h.append hno (Text.forall_mem_of_eq_some getLast?_applied (by decide))
  | marked name first second =>
    obtain ⟨hplain, hname, hfirst, hsecond⟩ := hb
    refine h.marked hplain first.plain_upper second.plain_upper ?_
    exact not_infix_applied hmarker isPlain_inverseMarker hname (forall_mem_pair hfirst hsecond)

theorem Resolves.tail {more : List (Link × BodyLiteral)} (h : Resolves t s)
    (hmore : ∀ p ∈ more, p.2.WellFormed) :
    Resolves (MinedRule.tail Link.operator BodyLiteral.marking more ++ t)
      (MinedRule.tail Link.operator BodyLiteral.clause more ++ s) := by
  induction more with
  | nil => exact h
  | cons p more ih =>
    have hrest := ih fun q hq => hmore q (List.mem_cons_of_mem _ hq)
    have hliteral := hrest.literal (hmore p List.mem_cons_self)
    rw [tail_cons, tail_cons]
    simp only [List.append_assoc] at hliteral ⊢
    refine hliteral.append ?_ ?_
    · cases p.1 <;> decide
    · simp [inverseMarker]

end Resolves

namespace MinedRule

variable {r : MinedRule}

theorem resolves_body (h : r.WellFormed) :
    Resolves (' ' :: (r.first.marking ++ tail Link.operator BodyLiteral.marking r.more ++ ['.']))
      (' ' :: (r.first.clause ++ tail Link.operator BodyLiteral.clause r.more ++ ['.'])) := by
  have hend : Resolves ['.'] ['.'] :=
    ⟨['.'], [], [], by decide, .nil, rfl⟩
  have hbody := ((hend.tail h.2).literal h.1).append (u := [' ']) (by decide)
    (by simp [inverseMarker])
  simpa only [List.append_assoc, List.singleton_append] using hbody

/-- The neck of a clause comes first: neither its head nor its markers contain a colon. -/
theorem cut_marked (r : MinedRule) : Text.cut? neck r.marked = some (r.head.clause ++ [' '],
    ' ' :: (r.first.marking ++ tail Link.operator BodyLiteral.marking r.more ++ ['.'])) := by
  have hhead : ¬ neck <:+: r.head.clause ++ [' '] := by
    refine not_infix_of_not_mem (c := ':') List.mem_cons_self ?_
    have hcolon : ':' ∉ r.head.clause := fun hmem =>
      (r.head.isInner_clause _ hmem).ne (by decide) (by decide) rfl
    simp [hcolon]
  have hmarked : r.marked = (r.head.clause ++ [' ']) ++ neck ++
      ' ' :: (r.first.marking ++ tail Link.operator BodyLiteral.marking r.more ++ ['.']) := by
    simp [marked, neck]
  rw [hmarked]
  exact Text.cut?_append (by decide) (Text.clear_of_not_infix (by decide) hhead)

theorem trimEnd_head (a : Atom) : Text.trimEnd (a.clause ++ [' ']) = a.clause := by
  rw [Text.trimEnd, Text.dropWhileEnd_append_of_all (by simp [isBlank])]
  exact Text.dropWhileEnd_of_getLast? (Text.forall_mem_of_eq_some getLast?_applied (by decide))

theorem head?_clause {b : BodyLiteral} (h : b.WellFormed) (t : Text) :
    ∀ c ∈ (b.clause ++ t).head?, isBlank c = false := by
  cases b with
  | plain a => exact fun c hc => isBlank_of_isSign (a.head?_append _ t c hc)
  | marked name first second =>
    intro c hc
    cases name with
    | nil =>
      rw [BodyLiteral.clause, applied] at hc
      simp only [List.nil_append, List.cons_append, List.head?_cons, Option.mem_some_iff] at hc
      rw [← hc]
      decide
    | cons d name =>
      rw [BodyLiteral.clause, applied] at hc
      simp only [List.cons_append, List.head?_cons, Option.mem_some_iff] at hc
      exact isBlank_of_isSign (h.1 c (by simp [hc]))

theorem resolveInverse_marked (h : r.WellFormed) :
    resolveInverse inverseMarker r.marked = .ok r.clause := by
  obtain ⟨piece, pieces, swapped, hsplit, hall, hbody⟩ := resolves_body h
  refine resolveInverse_eq_ok_iff.2
    ⟨_, _, piece, pieces, swapped, r.cut_marked, hsplit, hall, ?_⟩
  -- of the white space after the neck nothing is left but the blank that is written again
  rw [← hbody, trimEnd_head, Text.trimStart, List.dropWhile_cons_of_pos (by decide)]
  have hstart : (r.first.clause ++ tail Link.operator BodyLiteral.clause r.more ++ ['.']).dropWhile
      isBlank = r.first.clause ++ tail Link.operator BodyLiteral.clause r.more ++ ['.'] := by
    rw [List.append_assoc]
    exact Text.dropWhile_eq_self (head?_clause h.1 _)
  rw [hstart]
  simp [clause, neck]

end MinedRule

/-! ### Types -/

/-- No two opening parentheses follow each other. -/
def Spaced (t : Text) : Prop := t.IsChain fun c d => c = '(' → d ≠ '('

theorem Spaced.append {a b : Text} (ha : Spaced a) (hb : Spaced b)
    (hlast : ∀ c ∈ a.getLast?, c ≠ '(') : Spaced (a ++ b) :=
  List.IsChain.append ha hb fun c hc _ _ heq => absurd heq (hlast c hc)

theorem spaced_of_not_mem {t : Text} (h : '(' ∉ t) : Spaced t := by
  induction t with
  | nil => exact .nil
  | cons c t ih =>
    rw [List.mem_cons, not_or] at h
    exact List.isChain_cons.2 ⟨fun _ _ heq => absurd heq.symm h.1, ih h.2⟩

theorem Spaced.cut?_eq_none {t : Text} (h : Spaced t) : Text.cut? ['(', '('] t = none := by
  refine Text.cut?_eq_none fun hin => ?_
  have := List.IsChain.infix h hin
  simp at this

theorem spaced_applied {name : Text} {args : List Text} (hname : IsPlain name)
    (hargs : ∀ w ∈ args, IsPlain w) : Spaced (applied name args) := by
  have hlist : '(' ∉ List.intercalate [','] args ++ [')'] := by
    have hmem : ∀ c ∈ List.intercalate [','] args, c ≠ '(' :=
      forall_mem_intercalate (by simp) fun w hw c hc => (hargs w hw).ne hc (by decide)
    rw [List.mem_append, not_or]
    exact ⟨fun hc => hmem _ hc rfl, by decide⟩
  rw [applied, List.append_assoc, List.cons_append]
  refine (spaced_of_not_mem (hname.not_mem (by decide))).append ?_ fun c hc => ?_
  · refine List.isChain_cons.2 ⟨fun d hd _ heq => ?_, spaced_of_not_mem hlist⟩
    rw [heq] at hd
    exact hlist (List.mem_of_mem_head? hd)
  · exact hname.ne (List.mem_of_getLast? hc) (by decide)

theorem Atom.spaced_clause (a : Atom) : Spaced a.clause :=
  spaced_applied a.name.plain (isPlain_uppers a.args)

theorem BodyLiteral.spaced_clause {b : BodyLiteral} (h : b.WellFormed) : Spaced b.clause := by
  cases b with
  | plain a => exact a.spaced_clause
  | marked name first second =>
    exact spaced_applied h.1 (forall_mem_pair second.plain_upper first.plain_upper)

theorem Spaced.append_of_getLast? {a b : Text} (ha : Spaced a) (hlast : a.getLast? = some ')')
    (hb : Spaced b) : Spaced (a ++ b) :=
  ha.append hb (Text.forall_mem_of_eq_some hlast (by decide))

theorem spaced_tail {more : List (Link × BodyLiteral)} (h : ∀ p ∈ more, p.2.WellFormed) {t : Text}
    (ht : Spaced t) : Spaced (MinedRule.tail Link.operator BodyLiteral.clause more ++ t) := by
  induction more with
  | nil => exact ht
  | cons p more ih =>
    have hrest := ih fun q hq => h q (List.mem_cons_of_mem _ hq)
    have hclause := (h p List.mem_cons_self)
    rw [tail_cons, List.append_assoc, List.append_assoc]
    refine Spaced.append (spaced_of_not_mem ?_) ?_ ?_
    · cases p.1 <;> decide
    · exact (BodyLiteral.spaced_clause hclause).append_of_getLast? p.2.getLast?_clause hrest
    · simp

namespace MinedRule

variable {r : MinedRule}

theorem spaced_clause (h : r.WellFormed) : Spaced r.clause := by
  have hend : Spaced ['.'] := spaced_of_not_mem (by decide)
  have hbody := (BodyLiteral.spaced_clause h.1).append_of_getLast? r.first.getLast?_clause
    (spaced_tail h.2 hend)
  have hneck : Spaced ([' ', ':', '-', ' '] ++
      (r.first.clause ++ (tail Link.operator BodyLiteral.clause r.more ++ ['.']))) :=
    (spaced_of_not_mem (by decide)).append hbody (by simp)
  rw [clause, List.append_assoc, List.append_assoc, List.append_assoc]
  exact r.head.spaced_clause.append_of_getLast? getLast?_applied hneck

theorem terminateClause_clause (r : MinedRule) : terminateClause r.clause = r.clause := by
  obtain ⟨body, hclause, hhead, hlast⟩ : ∃ body, r.clause = body ++ ['.'] ∧
      (∀ c ∈ body.head?, isSign c = false) ∧ body.getLast? = some ')' := by
    refine ⟨_, rfl, ?_, getLast?_tail ?_ BodyLiteral.getLast?_clause⟩
    · rw [List.append_assoc, List.append_assoc]
      exact r.head.head?_append _ _
    · rw [List.getLast?_append, r.first.getLast?_clause, Option.some_or]
  have htrim : Text.trim body = body :=
    trimBy_of_ends (fun c => isBlank_of_isSign) (by decide) hhead hlast
  -- without the full stop the clause is its body, which ends with a parenthesis
  have hcommas : Text.trimBy (· == ',') body = body :=
    trimBy_of_ends (beq_of_isSign (by decide)) (by decide) hhead hlast
  have hne : body ≠ [] := by
    rintro rfl
    simp at hlast
  have hhead' : ∀ c ∈ (body ++ ['.']).head?, isSign c = false := by
    rwa [List.head?_append_of_ne_nil _ hne]
  have hstop : Text.trim (body ++ ['.']) = body ++ ['.'] := by
    exact Text.trimBy_eq_self (fun c hc => isBlank_of_isSign (hhead' c hc))
      (Text.forall_mem_of_eq_some List.getLast?_concat (by decide))
  have hdots : Text.trimBy (· == '.') (body ++ ['.']) = body := by
    rw [Text.trimBy, Text.dropWhile_eq_self fun c hc => beq_of_isSign (by decide) c (hhead' c hc),
      Text.dropWhileEnd_append_of_all (by simp)]
    exact Text.dropWhileEnd_of_getLast? (Text.forall_mem_of_eq_some hlast (by decide))
  rw [terminateClause, hclause, hstop, hdots, htrim, hcommas, htrim]

theorem strip_clause (h : r.WellFormed) : Canonicalizer.strip r.clause = .ok r.clause := by
  rw [Canonicalizer.strip, stripTypes, (spaced_clause h).cut?_eq_none]
  simp only [r.terminateClause_clause]

/-- **The canonical clause of a printed rule is its clause**, whether or not types are stripped. -/
theorem canonicalize_print (h : r.WellFormed) (strips : Bool) :
    ({ stripsTypes := strips } : Canonicalizer).canonicalize r.print = .ok (some r.clause) := by
  refine Canonicalizer.canonicalize_eq_ok_some_iff.2
    ⟨r.marked, r.clause, ?_, r.isFact_marked, resolveInverse_marked h, ?_⟩
  · rw [toClause_print h, markVariables_operated h]
  · cases strips with
    | false => rfl
    | true => exact strip_clause h

/-- `h(x,y) <- INVp(x,z) ∧ q(z) ∨ INV(a,y)` -/
def sample : MinedRule where
  head := ⟨⟨['h'], by decide, by decide⟩,
    [⟨['x'], by decide, by decide⟩, ⟨['y'], by decide, by decide⟩], by simp⟩
  first := .marked ['p'] ⟨['x'], by decide, by decide⟩ ⟨['z'], by decide, by decide⟩
  more := [
    (.conjunction, .plain ⟨⟨['q'], by decide, by decide⟩, [⟨['z'], by decide, by decide⟩], by simp⟩),
    (.disjunction, .marked [] ⟨['a'], by decide, by decide⟩ ⟨['y'], by decide, by decide⟩)]

/-- A marker may stand before a name and before a bare argument list. -/
theorem canonicalize_print_sample : sample.print = "h(x,y) <- INVp(x,z) ∧ q(z) ∨ INV(a,y)".toList ∧
    sample.WellFormed ∧ ({ stripsTypes := true } : Canonicalizer).canonicalize sample.print =
      .ok (some "h(X,Y) :- p(Z,X) , q(Z) ; (Y,A).".toList) := by
  have h : sample.WellFormed := by decide +kernel
  have hclause : sample.clause = "h(X,Y) :- p(Z,X) , q(Z) ; (Y,A).".toList := by decide +kernel
  exact ⟨by decide +kernel, h, hclause ▸ canonicalize_print h true⟩

end MinedRule

end MinedRules
