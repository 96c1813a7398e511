import MinedRules.Proofs.Text.Replacement
import Mathlib.Data.List.Pairwise

/-!
# Replacing several patterns in one scan

A table lists patterns with their replacements.  `scan` goes through a text once, from left to right:
where a pattern of the table begins its replacement is put in the place of it, and any other character
is copied.

If the patterns share no character, and no replacement can help to make one of them (`Apart`), then a
scan does what replacing the patterns one after the other does.

* `scan_pattern_append`, `scan_cons` : the two steps of a scan, and `scan_induction` over them.
* `scan_cons_entry` : the first pattern of a table can be replaced before the scan.
* `replaceEach_eq_scan` : hence all of them can, one after the other.
* `scan_perm` : the order of the table does not matter to the scan.
-/

namespace MinedRules

namespace Text

/-- The text with every pattern of the table replaced, where it is found first from left to right. -/
def scan (table : List (Text × Text)) : Text → Text
  | [] => []
  | c :: t =>
    match table.find? fun e => e.1.isPrefixOf (c :: t) with
    | some e => e.2 ++ scan table (t.drop (e.1.length - 1))
    | none => c :: scan table t
termination_by t => t.length
decreasing_by all_goals simp only [List.length_drop, List.length_cons]; omega

/-- The text with the patterns of the table replaced one after the other. -/
def replaceEach (table : List (Text × Text)) (t : Text) : Text :=
  table.foldl (fun t e => replace e.1 e.2 t) t

/-- The text cannot help to make an occurrence of the pattern: its first character keeps occurrences
from reaching into it, and none begins in it. -/
structure Inert (pattern replacement : Text) : Prop where
  nonempty : replacement ≠ []
  first : ∀ c ∈ replacement.head?, c ∉ pattern
  starts : ∀ c ∈ replacement, pattern.head? ≠ some c

/-- The patterns of the two entries share no character. -/
def Unrelated (e f : Text × Text) : Prop := e.1.Disjoint f.1

instance : Std.Symm Unrelated := ⟨fun _ _ h => List.disjoint_symm h⟩

/-- The patterns of a table have nothing to do with each other and with the replacements. -/
structure Apart (table : List (Text × Text)) : Prop where
  nonempty : ∀ e ∈ table, e.1 ≠ []
  disjoint : table.Pairwise Unrelated
  inert : ∀ e ∈ table, ∀ f ∈ table, Inert e.1 f.2

variable {table : List (Text × Text)} {pattern replacement q a b t : Text}

/-! ### Beginnings of texts -/

theorem head?_ne_of_not_mem {c : Char} (hc : c ∉ q) : q.head? ≠ some c :=
  fun h => hc (List.mem_of_head? h)

theorem not_disjoint_of_prefix {p : Text} (hp : p ≠ []) (hq : q ≠ []) (hpt : p <+: t)
    (hqt : q <+: t) : ¬ p.Disjoint q := by
  obtain ⟨c, p, rfl⟩ := List.exists_cons_of_ne_nil hp
  obtain ⟨d, q, rfl⟩ := List.exists_cons_of_ne_nil hq
  obtain ⟨u, rfl⟩ := hpt
  obtain ⟨rfl, -⟩ := List.cons_prefix_cons.1 hqt
  exact fun h => h List.mem_cons_self List.mem_cons_self

/-! ### Replacing next to other patterns -/

theorem replace_disjoint_append (hne : pattern ≠ []) (h : q.Disjoint pattern) :
    replace pattern replacement (q ++ t) = q ++ replace pattern replacement t := by
  induction q with
  | nil => rfl
  | cons c q ih =>
    rw [List.disjoint_cons_left] at h
    have hpre : ¬ pattern <+: c :: (q ++ t) := by
      obtain ⟨p, ps, rfl⟩ := List.exists_cons_of_ne_nil hne
      intro hpre
      exact h.1 (by simp [(List.cons_prefix_cons.1 hpre).1])
    rw [List.cons_append, replace_cons_of_not_prefix hne hpre, ih h.2, List.cons_append]

/-- A pattern that begins before replaced text and reaches into it was there before. -/
theorem prefix_of_prefix_replace (hne : pattern ≠ []) (hinert : Inert q replacement)
    (h : q <+: a ++ replace pattern replacement t) : q <+: a ++ t := by
  induction t using cut_induction hne with
  | free t ht => rwa [Text.replace_of_not_infix hne ht] at h
  | occurs x y hx _ =>
    obtain ⟨c, rest, rfl⟩ := List.exists_cons_of_ne_nil hinert.nonempty
    have htext : a ++ (x ++ c :: rest ++ replace pattern (c :: rest) y) =
        a ++ x ++ c :: (rest ++ replace pattern (c :: rest) y) := by simp
    rw [replace_append hne hx, htext] at h
    have hax := prefix_of_prefix_append_cons (hinert.first c rfl) h
    rw [List.append_assoc x, ← List.append_assoc a]
    exact hax.trans (List.prefix_append _ _)

/-! ### The steps of a scan -/

theorem scan_nil (table : List (Text × Text)) : scan table [] = [] := by rw [scan]

theorem scan_cons {c : Char} (h : ∀ e ∈ table, ¬ e.1 <+: c :: t) :
    scan table (c :: t) = c :: scan table t := by
  have hfind : (table.find? fun e => e.1.isPrefixOf (c :: t)) = none := by
    simpa [List.isPrefixOf_iff_prefix] using h
  rw [scan, hfind]

theorem Apart.eq_of_prefix (h : Apart table) {e f : Text × Text} (he : e ∈ table) (hf : f ∈ table)
    (het : e.1 <+: t) (hft : f.1 <+: t) : e = f := by
  by_contra hne
  exact not_disjoint_of_prefix (h.nonempty e he) (h.nonempty f hf) het hft
    (h.disjoint.forall he hf hne)

theorem scan_pattern_append (h : Apart table) {e : Text × Text} (he : e ∈ table) (t : Text) :
    scan table (e.1 ++ t) = e.2 ++ scan table t := by
  obtain ⟨c, rest, hcons⟩ := List.exists_cons_of_ne_nil (h.nonempty e he)
  have hfind : (table.find? fun f => f.1.isPrefixOf (c :: (rest ++ t))) = some e := by
    have hpre : e.1 <+: c :: (rest ++ t) := ⟨t, by rw [hcons, List.cons_append]⟩
    have hsome : (table.find? fun f => f.1.isPrefixOf (c :: (rest ++ t))).isSome :=
      List.find?_isSome.2 ⟨e, he, List.isPrefixOf_iff_prefix.2 hpre⟩
    obtain ⟨f, hf⟩ := Option.isSome_iff_exists.1 hsome
    have hft := List.find?_some hf
    rw [hf, h.eq_of_prefix (List.mem_of_find?_eq_some hf) he (List.isPrefixOf_iff_prefix.1 hft) hpre]
  have hdrop : (rest ++ t).drop (e.1.length - 1) = t := by simp [hcons]
  rw [hcons, List.cons_append, scan, hfind]
  simp only [hdrop]

/-- A text is empty, or begins with a pattern, or with a character at which no pattern begins. -/
@[elab_as_elim]
theorem scan_induction {motive : Text → Prop} (hne : ∀ e ∈ table, e.1 ≠ []) (nil : motive [])
    (pattern : ∀ e ∈ table, ∀ t, motive t → motive (e.1 ++ t))
    (copied : ∀ c t, (∀ e ∈ table, ¬ e.1 <+: c :: t) → motive t → motive (c :: t)) (t : Text) :
    motive t := by
  induction hlength : t.length using Nat.strong_induction_on generalizing t with
  | _ n ih =>
    by_cases hpre : ∃ e ∈ table, e.1 <+: t
    · obtain ⟨e, he, rest, rfl⟩ := hpre
      have hpos := List.length_pos_of_ne_nil (hne e he)
      refine pattern e he rest (ih rest.length ?_ rest rfl)
      rw [← hlength, List.length_append]
      omega
    · cases t with
      | nil => exact nil
      | cons c t =>
        refine copied c t (fun e he hpre' => hpre ⟨e, he, hpre'⟩) (ih t.length ?_ t rfl)
        rw [← hlength, List.length_cons]
        exact Nat.lt_succ_self _

theorem scan_append (hne : ∀ e ∈ table, e.1 ≠ [])
    (h : ∀ e ∈ table, ∀ c ∈ a, e.1.head? ≠ some c) (t : Text) :
    scan table (a ++ t) = a ++ scan table t := by
  induction a with
  | nil => rfl
  | cons c a ih =>
    rw [List.cons_append, scan_cons, ih fun e he d hd => h e he d (List.mem_cons_of_mem _ hd),
      List.cons_append]
    intro e he hpre
    obtain ⟨p, ps, hp⟩ := List.exists_cons_of_ne_nil (hne e he)
    rw [hp] at hpre
    exact h e he c List.mem_cons_self (by rw [hp, List.head?_cons, (List.cons_prefix_cons.1 hpre).1])

/-! ### One scan and several replacements -/

theorem Apart.tail {e : Text × Text} (h : Apart (e :: table)) : Apart table where
  nonempty f hf := h.nonempty f (List.mem_cons_of_mem _ hf)
  disjoint := (List.pairwise_cons.1 h.disjoint).2
  inert f hf g hg := h.inert f (List.mem_cons_of_mem _ hf) g (List.mem_cons_of_mem _ hg)

theorem Apart.perm {table' : List (Text × Text)} (h : Apart table) (hperm : table.Perm table') :
    Apart table' where
  nonempty e he := h.nonempty e (hperm.mem_iff.2 he)
  disjoint := hperm.pairwise h.disjoint fun hd => List.disjoint_symm hd
  inert e he f hf := h.inert e (hperm.mem_iff.2 he) f (hperm.mem_iff.2 hf)

/-- **The first pattern of a table can be replaced before the scan**: neither does this touch the other
patterns, nor does it make new ones. -/
theorem scan_cons_entry (h : Apart ((pattern, replacement) :: table)) (t : Text) :
    scan ((pattern, replacement) :: table) t = scan table (replace pattern replacement t) := by
  have hne : pattern ≠ [] := h.nonempty _ List.mem_cons_self
  have hinert : ∀ e ∈ table, Inert e.1 replacement := fun e he =>
    h.inert e (List.mem_cons_of_mem _ he) _ List.mem_cons_self
  induction t using scan_induction h.nonempty with
  | nil =>
    have hnil : replace pattern replacement [] = [] :=
      replace_of_not_infix hne fun hin => hne (List.infix_nil.1 hin)
    rw [hnil, scan_nil, scan_nil]
  | pattern e he t ih =>
    rw [scan_pattern_append h he, ih]
    rcases List.mem_cons.1 he with rfl | he
    · rw [replace_pattern_append hne,
        scan_append h.tail.nonempty fun e he => (hinert e he).starts]
    · have hdisjoint := (List.pairwise_cons.1 h.disjoint).1 e he
      rw [replace_disjoint_append hne (List.disjoint_symm hdisjoint), scan_pattern_append h.tail he]
  | copied c t hcopied ih =>
    rw [scan_cons hcopied, ih, replace_cons_of_not_prefix hne (hcopied _ List.mem_cons_self),
      scan_cons]
    intro e he hpre
    exact hcopied e (List.mem_cons_of_mem _ he)
      (prefix_of_prefix_replace (a := [c]) hne (hinert e he) hpre)

theorem scan_nil_table (t : Text) : scan [] t = t := by
  induction t with
  | nil => exact scan_nil []
  | cons c t ih => rw [scan_cons (by simp), ih]

/-- **Replacing the patterns one after the other is one scan.** -/
theorem replaceEach_eq_scan (h : Apart table) (t : Text) : replaceEach table t = scan table t := by
  induction table generalizing t with
  | nil => exact (scan_nil_table t).symm
  | cons e table ih => rw [replaceEach, List.foldl_cons, ← replaceEach, ih h.tail, scan_cons_entry h]

theorem scan_perm {table' : List (Text × Text)} (h : Apart table) (hperm : table.Perm table')
    (t : Text) : scan table t = scan table' t := by
  induction t using scan_induction h.nonempty with
  | nil => rw [scan_nil, scan_nil]
  | pattern e he t ih =>
    rw [scan_pattern_append h he, scan_pattern_append (h.perm hperm) (hperm.mem_iff.1 he), ih]
  | copied c t hcopied ih =>
    rw [scan_cons hcopied, scan_cons fun e he => hcopied e (hperm.mem_iff.2 he), ih]

end Text

end MinedRules
