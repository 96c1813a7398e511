import MinedRules.Proofs.RuleSet.Members
import MinedRules.Proofs.Text.CodePoints
import MinedRules.Proofs.Text.Lines

/-!
# The text of a rule set

The text of a rule set has its clauses in ascending order, with line feeds between them.

* `RuleSet.render_determines` : if every clause is a line, the clauses are read back from the text, so
  different sets have different texts.
* `RuleSet.clauses_ascending` : the order of the clauses is the order of their code points, as well as
  that of their bytes.
-/

namespace MinedRules

/-- The texts between the line feeds of a text; a text without characters has none. -/
def Text.betweenFeeds (t : Text) : List Text := if t = [] then [] else t.splitOn '\n'

namespace RuleSet

variable {s s' : RuleSet} {l : List Text}

/-! ### Clauses and lines -/

/-- Every clause is a line: it is not empty, and it has no line feed. -/
structure IsLines (s : RuleSet) : Prop where
  nonempty : ∀ c ∈ s.clauses, c ≠ []
  feedless : ∀ c ∈ s.clauses, '\n' ∉ c

theorem IsLines.splitOn_render (h : s.IsLines) (hne : s.clauses ≠ []) :
    s.render.splitOn '\n' = s.clauses :=
  List.splitOn_intercalate '\n' h.feedless hne

theorem IsLines.nil_not_mem (h : s.IsLines) : [] ∉ s.clauses := fun hmem => h.nonempty [] hmem rfl

theorem IsLines.render_eq_nil_iff (h : s.IsLines) : s.render = [] ↔ s.clauses = [] := by
  refine ⟨fun hrender => ?_, fun hclauses => by rw [render, hclauses]; rfl⟩
  by_contra hne
  have hsplit := h.splitOn_render hne
  rw [hrender, List.splitOn_nil] at hsplit
  exact h.nil_not_mem (hsplit ▸ List.mem_singleton_self [])

theorem IsLines.betweenFeeds_render (h : s.IsLines) : s.render.betweenFeeds = s.clauses := by
  rw [Text.betweenFeeds]
  split
  · next hnil => exact (h.render_eq_nil_iff.1 hnil).symm
  · next hne => exact h.splitOn_render fun hnil => hne (h.render_eq_nil_iff.2 hnil)

theorem IsLines.getLast?_render (h : s.IsLines) : s.render.getLast? ≠ some '\n' := by
  intro hlast
  obtain ⟨t, ht⟩ := List.getLast?_eq_some_iff.1 hlast
  have hne : s.clauses ≠ [] := fun hnil => by
    rw [h.render_eq_nil_iff.2 hnil] at hlast
    exact nomatch hlast
  have hsplit := h.splitOn_render hne
  rw [ht, splitOn_append_cons, List.splitOn_nil] at hsplit
  exact h.nil_not_mem (hsplit ▸ List.mem_append_right _ (List.mem_singleton_self []))

theorem IsLines.render_inj (h : s.IsLines) (h' : s'.IsLines) : s.render = s'.render ↔ s = s' := by
  refine ⟨fun heq => ext_mem fun c => ?_, congrArg render⟩
  rw [← h.betweenFeeds_render, ← h'.betweenFeeds_render, heq]

/-- **The text determines the set.**  Between the line feeds of the text of a set stand exactly its
clauses, and no line feed ends it; two sets have the same text, and a file with it the same bytes, if
and only if they are equal. -/
theorem render_determines (s s' : RuleSet) (h : s.IsLines) (h' : s'.IsLines) :
    s.render.betweenFeeds = s.clauses ∧ s.render.getLast? ≠ some '\n' ∧
      (s.render = s'.render ↔ s = s') ∧
      (Text.encode s.render = Text.encode s'.render ↔ s = s') := by
  refine ⟨h.betweenFeeds_render, h.getLast?_render, h.render_inj h', ?_⟩
  rw [← h.render_inj h']
  exact ⟨Text.encode_injective, congrArg Text.encode⟩

/-- Two clauses, one with a carriage return at its end, and no clause. -/
theorem render_determines_empty :
    let s := ofList ["é(X) :- b(X).\r".toList, "a(X) :- b(X).".toList]
    s.render.betweenFeeds = ["a(X) :- b(X).".toList, "é(X) :- b(X).\r".toList] ∧
      (∅ : RuleSet).render.betweenFeeds = [] ∧ s.render ≠ (∅ : RuleSet).render := by
  intro s
  have hs : s.IsLines := ⟨by decide, by decide⟩
  have hempty : (∅ : RuleSet).IsLines := ⟨nofun, nofun⟩
  obtain ⟨hread, -, hiff, -⟩ := render_determines s ∅ hs hempty
  obtain ⟨hread', -⟩ := render_determines ∅ s hempty hs
  exact ⟨hread, hread', fun heq => absurd (hiff.1 heq) (by decide)⟩

/-! ### The order of the clauses -/

/-- The texts come in strictly ascending order of their bytes and of their code points. -/
structure IsAscending (l : List Text) : Prop where
  bytes : l.Pairwise fun a b => compare (Text.encode a) (Text.encode b) = .lt
  codePoints : l.Pairwise fun a b => compare (Text.codePoints a) (Text.codePoints b) = .lt

theorem isAscending_iff : IsAscending l ↔ l.Pairwise Text.Before :=
  ⟨fun h => h.bytes.imp Text.before_iff_compare.2,
    fun h => ⟨h.imp Text.before_iff_compare.1, h.imp Text.before_iff_codePoints.1⟩⟩

/-- **The order of the clauses is the order of code points.**  It does not matter whether texts are
compared by bytes or by code points.  So a set lists its clauses in both orders at once, and in its
text they stand as any list has them that is ascending by code points. -/
theorem clauses_ascending :
    (∀ a b : Text, compare (Text.encode a) (Text.encode b) =
      compare (Text.codePoints a) (Text.codePoints b)) ∧
    ∀ s : RuleSet, IsAscending s.clauses ∧ ∀ l : List Text, (∀ c, c ∈ l ↔ c ∈ s.clauses) →
      l.Pairwise (fun a b => compare (Text.codePoints a) (Text.codePoints b) = .lt) →
      s.clauses = l ∧ s.render = List.intercalate ['\n'] l := by
  refine ⟨Text.compare_encode, fun s => ⟨isAscending_iff.2 s.ascending, fun l hmem hl => ?_⟩⟩
  have hbefore : l.Pairwise Text.Before := hl.imp Text.before_iff_codePoints.2
  have heq : s.clauses = l := s.ascending.eq_of_mem_iff hbefore fun c => (hmem c).symm
  exact ⟨heq, by rw [render, heq]⟩

/-- Characters of one to four bytes.  Compared by units of 16 bits, the last text would come before the
one in front of it. -/
theorem clauses_ascending_widths :
    let l := ["z.".toList, "é.".toList, "～.".toList, "😀.".toList]
    (ofList l.reverse).clauses = l ∧
      (ofList l.reverse).render = "z.\né.\n～.\n😀.".toList := by
  intro l
  have hl : l.Pairwise fun a b => compare (Text.codePoints a) (Text.codePoints b) = .lt := by decide
  have hmem : ∀ c, c ∈ l ↔ c ∈ (ofList l.reverse).clauses := fun c => by
    rw [mem_ofList, List.mem_reverse]
  exact ((clauses_ascending.2 _).2 l hmem hl).imp id fun h => h.trans (by decide)

end RuleSet

end MinedRules
