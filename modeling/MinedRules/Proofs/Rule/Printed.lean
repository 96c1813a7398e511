import MinedRules.Proofs.Text.Occurrences
import MinedRules.Proofs.Text.Trimming
import MinedRules.Proofs.Text.Uppercase

/-!
# Well-formed rules and their texts

A well-formed rule (`MinedRule`) has a head and a list of body literals that are joined by
conjunctions and disjunctions.  All names and arguments are words (`Word`): they have no white space
and none of the signs that structure rules and clauses.  A body literal may be marked as inverse.

`MinedRule.print` writes the rule with the symbols of the miner, and `MinedRule.clause` is its clause:
names as they are, arguments in uppercase, operators for symbols, marked literals without their
markers and with their arguments exchanged.

Every literal is a name with an argument list (`applied`).  Its characters are those of words,
parentheses and commas (`isInner_applied`), it ends with a parenthesis (`getLast?_applied`), and it
contains the marker only if its name or an argument does (`not_infix_applied`).
-/

namespace MinedRules

/-- A text without white space and signs. -/
def IsPlain (t : Text) : Prop := ∀ c ∈ t, isSign c = false

instance : DecidablePred IsPlain := fun t =>
  decidable_of_iff (t.all fun c => !isSign c) (by simp [IsPlain])

/-- A name or an argument: not empty, without white space and signs. -/
structure Word where
  text : Text
  nonempty : text ≠ []
  plain : IsPlain text

/-- The inverse marker that is used by default. -/
def inverseMarker : Text := ['I', 'N', 'V']

/-- A name before the list of its arguments. -/
def applied (name : Text) (args : List Text) : Text :=
  name ++ '(' :: List.intercalate [','] args ++ [')']

/-- A literal with at least one argument. -/
structure Atom where
  name : Word
  args : List Word
  nonempty : args ≠ []

/-- A literal of a body. -/
inductive BodyLiteral
  | plain (a : Atom)
  /-- A literal behind the marker: its name may be empty, and it has two arguments. -/
  | marked (name : Text) (first second : Word)

/-- What joins two literals of a body. -/
inductive Link
  | conjunction
  | disjunction

/-- A rule: its head, the first literal of its body, and the further ones with their links. -/
structure MinedRule where
  head : Atom
  first : BodyLiteral
  more : List (Link × BodyLiteral)

/-- The text of a word in uppercase. -/
def Word.upper (w : Word) : Text := w.text.map uppercase

namespace Atom

/-- The literal as a miner writes it. -/
def print (a : Atom) : Text := applied a.name.text (a.args.map Word.text)

/-- The literal in a clause. -/
def clause (a : Atom) : Text := applied a.name.text (a.args.map Word.upper)

end Atom

namespace BodyLiteral

/-- The marker occurs in a body literal only where it marks it. -/
def WellFormed : BodyLiteral → Prop
  | plain a => ¬ inverseMarker <:+: a.name.text ∧ ∀ w ∈ a.args, ¬ inverseMarker <:+: w.upper
  | marked name first second => IsPlain name ∧ ¬ inverseMarker <:+: name ∧
      ¬ inverseMarker <:+: first.upper ∧ ¬ inverseMarker <:+: second.upper

instance : DecidablePred WellFormed
  | plain _ => inferInstanceAs (Decidable (_ ∧ _))
  | marked _ _ _ => inferInstanceAs (Decidable (_ ∧ _ ∧ _ ∧ _))

/-- The body literal as a miner writes it. -/
def print : BodyLiteral → Text
  | plain a => a.print
  | marked name first second => inverseMarker ++ applied name [first.text, second.text]

/-- The body literal with its arguments in uppercase. -/
def marking : BodyLiteral → Text
  | plain a => a.clause
  | marked name first second => inverseMarker ++ applied name [first.upper, second.upper]

/-- The body literal in a clause: the arguments of a marked one are exchanged. -/
def clause : BodyLiteral → Text
  | plain a => a.clause
  | marked name first second => applied name [second.upper, first.upper]

end BodyLiteral

namespace Link

/-- The symbol of a link in a rule. -/
def symbol : Link → Char
  | conjunction => '∧'
  | disjunction => '∨'

/-- The operator of a link in a clause. -/
def operator : Link → Char
  | conjunction => ','
  | disjunction => ';'

end Link

namespace MinedRule

/-- The further literals of a body, each behind its link, where `sign` writes links and `write`
writes literals. -/
def tail (sign : Link → Char) (write : BodyLiteral → Text) (more : List (Link × BodyLiteral)) :
    Text :=
  more.flatMap fun p => ' ' :: sign p.1 :: ' ' :: write p.2

/-- The rule as a miner writes it. -/
def print (r : MinedRule) : Text :=
  r.head.print ++ [' ', '<', '-', ' '] ++ r.first.print ++ tail Link.symbol BodyLiteral.print r.more

/-- The clause of the rule. -/
def clause (r : MinedRule) : Text :=
  r.head.clause ++ [' ', ':', '-', ' '] ++ r.first.clause ++
    tail Link.operator BodyLiteral.clause r.more ++ ['.']

/-- The marker occurs in the body only where it marks a literal. -/
def WellFormed (r : MinedRule) : Prop := r.first.WellFormed ∧ ∀ p ∈ r.more, p.2.WellFormed

instance : DecidablePred WellFormed := fun _ => inferInstanceAs (Decidable (_ ∧ _))

end MinedRule

/-! ### The characters of a literal -/

theorem Word.plain_upper (w : Word) : IsPlain w.upper := by
  intro c hc
  obtain ⟨d, hd, rfl⟩ := List.mem_map.1 hc
  rw [isSign_uppercase, w.plain d hd]

theorem IsPlain.ne {t : Text} (h : IsPlain t) {c d : Char} (hc : c ∈ t) (hd : isSign d = true) :
    c ≠ d :=
  (Text.ne_of_class hd (h c hc)).symm

theorem IsPlain.not_mem {t : Text} (h : IsPlain t) {d : Char} (hd : isSign d = true) : d ∉ t :=
  fun hmem => h.ne hmem hd rfl

theorem isBlank_of_isSign {c : Char} (h : isSign c = false) : isBlank c = false := by
  rw [isSign, Bool.or_eq_false_iff] at h
  exact h.1

theorem beq_of_isSign {d : Char} (hd : isSign d = true) (c : Char) (h : isSign c = false) :
    (c == d) = false :=
  beq_eq_false_iff_ne.2 (Text.ne_of_class hd h).symm

theorem IsPlain.not_blank {t : Text} (h : IsPlain t) {c : Char} (hc : c ∈ t) : isBlank c = false :=
  isBlank_of_isSign (h c hc)

/-- The characters that literals are made of: those of words, parentheses and commas. -/
def IsInner (c : Char) : Prop := isSign c = true → c ∈ ['(', ')', ',']

theorem IsInner.ne {c d : Char} (h : IsInner c) (hd : isSign d = true) (hd' : d ∉ ['(', ')', ',']) :
    c ≠ d := by
  rintro rfl
  exact hd' (h hd)

theorem IsPlain.isInner {t : Text} (h : IsPlain t) : ∀ c ∈ t, IsInner c :=
  fun _ hc hs => absurd rfl (h.ne hc hs)

theorem forall_mem_intercalate {P : Char → Prop} {sep : Text} {l : List Text}
    (hsep : ∀ c ∈ sep, P c) (hl : ∀ t ∈ l, ∀ c ∈ t, P c) : ∀ c ∈ sep.intercalate l, P c := by
  induction l with
  | nil => simp
  | cons t l ih =>
    have ht := hl t List.mem_cons_self
    have hl' := ih fun u hu => hl u (List.mem_cons_of_mem _ hu)
    cases l with
    | nil => simpa using ht
    | cons u l =>
      intro c hc
      rw [List.intercalate_cons_cons, List.mem_append, List.mem_append] at hc
      rcases hc with (hc | hc) | hc
      · exact ht c hc
      · exact hsep c hc
      · exact hl' c hc

theorem map_intercalate (f : Char → Char) (sep : Text) (l : List Text) :
    (sep.intercalate l).map f = (sep.map f).intercalate (l.map (List.map f)) := by
  induction l with
  | nil => rfl
  | cons t l ih =>
    cases l with
    | nil => simp
    | cons u l =>
      rw [List.intercalate_cons_cons, List.map_append, List.map_append, ih]
      simp

theorem map_eq_self {f : Char → Char} {t : Text} (h : ∀ c ∈ t, f c = c) : t.map f = t := by
  rw [List.map_congr_left h, List.map_id']

section Applied

variable {name : Text} {args : List Text}

theorem isInner_applied (hname : IsPlain name) (hargs : ∀ w ∈ args, IsPlain w) :
    ∀ c ∈ applied name args, IsInner c := by
  have hcomma : ∀ c ∈ [','], IsInner c := fun c hc _ => by simp [List.mem_singleton.1 hc]
  intro c hc
  rw [applied, List.append_assoc, List.cons_append, List.mem_append, List.mem_cons,
    List.mem_append, List.mem_singleton] at hc
  rcases hc with hc | rfl | hc | rfl
  · exact hname.isInner c hc
  · exact fun _ => by simp
  · exact forall_mem_intercalate hcomma (fun w hw => (hargs w hw).isInner) c hc
  · exact fun _ => by simp

theorem getLast?_applied : (applied name args).getLast? = some ')' := by
  rw [applied, List.getLast?_concat]

theorem not_infix_applied {pattern : Text} (hne : pattern ≠ []) (hpattern : IsPlain pattern)
    (hname : ¬ pattern <:+: name) (hargs : ∀ w ∈ args, ¬ pattern <:+: w) :
    ¬ pattern <:+: applied name args := by
  have hnil : ¬ pattern <:+: [] := fun h => hne (List.infix_nil.1 h)
  have hlist : ¬ pattern <:+: List.intercalate [','] args := by
    induction args with
    | nil => exact hnil
    | cons w args ih =>
      have hw := hargs w List.mem_cons_self
      have hrest := ih fun u hu => hargs u (List.mem_cons_of_mem _ hu)
      cases args with
      | nil => simpa using hw
      | cons u args =>
        rw [List.intercalate_cons_cons, List.append_assoc, List.singleton_append]
        intro h
        rcases Text.infix_of_infix_append_cons (hpattern.not_mem (by decide)) h with h | h
        · exact hw h
        · exact hrest h
  intro h
  rw [applied, List.append_assoc, List.cons_append] at h
  rcases Text.infix_of_infix_append_cons (hpattern.not_mem (by decide)) h with h | h
  · exact hname h
  · rcases Text.infix_of_infix_append_cons (hpattern.not_mem (by decide)) h with h | h
    · exact hlist h
    · exact hnil h

end Applied

/-! ### Literals -/

theorem isPlain_inverseMarker : IsPlain inverseMarker := by decide

theorem isPlain_texts (args : List Word) : ∀ t ∈ args.map Word.text, IsPlain t := by
  intro t ht
  obtain ⟨w, -, rfl⟩ := List.mem_map.1 ht
  exact w.plain

theorem isPlain_uppers (args : List Word) : ∀ t ∈ args.map Word.upper, IsPlain t := by
  intro t ht
  obtain ⟨w, -, rfl⟩ := List.mem_map.1 ht
  exact w.plain_upper

theorem forall_mem_pair {P : Text → Prop} {first second : Text} (h1 : P first) (h2 : P second) :
    ∀ t ∈ [first, second], P t :=
  List.forall_mem_cons.2 ⟨h1, List.forall_mem_singleton.2 h2⟩

theorem Atom.isInner_print (a : Atom) : ∀ c ∈ a.print, IsInner c :=
  isInner_applied a.name.plain (isPlain_texts a.args)

theorem Atom.isInner_clause (a : Atom) : ∀ c ∈ a.clause, IsInner c :=
  isInner_applied a.name.plain (isPlain_uppers a.args)

theorem Atom.head?_applied (a : Atom) (args : List Text) :
    ∀ c ∈ (applied a.name.text args).head?, isSign c = false := by
  obtain ⟨d, name, hname⟩ := List.exists_cons_of_ne_nil a.name.nonempty
  intro c hc
  rw [applied, hname, List.cons_append, List.cons_append, List.head?_cons, Option.mem_some_iff] at hc
  refine a.name.plain c ?_
  rw [hname, ← hc]
  exact List.mem_cons_self

theorem Atom.head?_append (a : Atom) (args : List Text) (t : Text) :
    ∀ c ∈ (applied a.name.text args ++ t).head?, isSign c = false := by
  intro c hc
  rw [List.head?_append_of_ne_nil _ (by simp [applied])] at hc
  exact a.head?_applied args c hc

theorem BodyLiteral.isInner_print {b : BodyLiteral} (h : b.WellFormed) :
    ∀ c ∈ b.print, IsInner c := by
  cases b with
  | plain a => exact a.isInner_print
  | marked name first second =>
    intro c hc
    rcases List.mem_append.1 hc with hc | hc
    · exact isPlain_inverseMarker.isInner c hc
    · exact isInner_applied h.1 (forall_mem_pair first.plain second.plain) c hc

theorem BodyLiteral.getLast?_print (b : BodyLiteral) : b.print.getLast? = some ')' := by
  cases b with
  | plain a => exact getLast?_applied
  | marked name first second => rw [print, List.getLast?_append, getLast?_applied, Option.some_or]

theorem BodyLiteral.getLast?_marking (b : BodyLiteral) : b.marking.getLast? = some ')' := by
  cases b with
  | plain a => exact getLast?_applied
  | marked name first second =>
    rw [marking, List.getLast?_append, getLast?_applied, Option.some_or]

theorem BodyLiteral.getLast?_clause (b : BodyLiteral) : b.clause.getLast? = some ')' := by
  cases b with
  | plain a => exact getLast?_applied
  | marked name first second => exact getLast?_applied

/-! ### Bodies -/

section Tail

variable {sign : Link → Char} {write : BodyLiteral → Text} {more : List (Link × BodyLiteral)}

theorem tail_nil : MinedRule.tail sign write [] = [] := rfl

theorem tail_cons (l : Link) (b : BodyLiteral) : MinedRule.tail sign write ((l, b) :: more) =
    [' ', sign l, ' '] ++ write b ++ MinedRule.tail sign write more := by
  simp [MinedRule.tail]

theorem getLast?_tail {t : Text} (ht : t.getLast? = some ')')
    (hwrite : ∀ b, (write b).getLast? = some ')') :
    (t ++ MinedRule.tail sign write more).getLast? = some ')' := by
  induction more generalizing t with
  | nil => rw [tail_nil, List.append_nil, ht]
  | cons p more ih =>
    rw [tail_cons, ← List.append_assoc]
    refine ih ?_
    rw [List.getLast?_append, List.getLast?_append, hwrite, Option.some_or, Option.some_or]

/-- A map of characters that keeps the texts of the literals changes only the signs. -/
theorem map_tail {f : Char → Char} (hspace : f ' ' = ' ')
    (hwrite : ∀ p ∈ more, (write p.2).map f = write p.2) :
    (MinedRule.tail sign write more).map f = MinedRule.tail (fun l => f (sign l)) write more := by
  rw [MinedRule.tail, MinedRule.tail, List.map_flatMap]
  refine List.flatMap_congr fun p hp => ?_
  rw [List.map_cons, List.map_cons, List.map_cons, hspace, hwrite p hp]

theorem not_mem_tail {c : Char} (hspace : c ≠ ' ') (hsign : ∀ l, c ≠ sign l)
    (hwrite : ∀ p ∈ more, c ∉ write p.2) : c ∉ MinedRule.tail sign write more := by
  intro hc
  obtain ⟨p, hp, hc⟩ := List.mem_flatMap.1 hc
  rcases List.mem_cons.1 hc with hc | hc
  · exact hspace hc
  rcases List.mem_cons.1 hc with hc | hc
  · exact hsign p.1 hc
  rcases List.mem_cons.1 hc with hc | hc
  · exact hspace hc
  · exact hwrite p hp hc

end Tail

end MinedRules
