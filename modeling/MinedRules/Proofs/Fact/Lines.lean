import MinedRules.Fact
import MinedRules.Proofs.Text.Lines
import Mathlib.Data.List.Range

/-!
# The lines of a text of facts

A text of facts is read line by line, and every line that is neither blank nor a comment counts: it
states a fact or is listed as skipped, with its number (`FactFile.IsAccount`).

* `FactFile.ofText_eq` : a text holds what its trimmed lines hold, each for itself.
* `FactFile.ofText_append` : two texts, one below the other, hold what both of them hold.
* `FactFile.ofText_addsReturns` : carriage returns before line feeds do not count.
-/

namespace MinedRules

namespace FactFile

variable {number : Nat} {lines lines' : List Text}

/-! ### Numbered lines -/

/-- The lines that count, trimmed and with their numbers, the first of which is `number`. -/
def numbered (number : Nat) (lines : List Text) : List (Text × Nat) :=
  ((lines.map Text.trim).zipIdx number).filter fun l => !isComment l.1

/-- The facts that numbered lines state, and the lines that state none. -/
def ofNumbered (lines : List (Text × Nat)) : FactFile where
  facts := lines.filterMap fun l => Fact.ofLine? l.1
  skipped := (lines.filter fun l => (Fact.ofLine? l.1).isNone).map fun l => ⟨l.2, l.1⟩

theorem ofLines_eq (number : Nat) (lines : List Text) :
    ofLines number lines = ofNumbered (numbered number lines) := by
  induction lines generalizing number with
  | nil => rfl
  | cons line lines ih =>
    rw [ofLines, numbered, List.map_cons, List.zipIdx_cons]
    split
    · next hcomment => rw [List.filter_cons_of_neg (by simp [hcomment]), ih, numbered]
    · next hcounts =>
      rw [List.filter_cons_of_pos (by simp [hcounts]), ih, numbered]
      split
      · next fact hfact => simp [ofNumbered, hfact]
      · next hnone => simp [ofNumbered, hnone]

theorem numbered_append (number : Nat) (lines lines' : List Text) :
    numbered number (lines ++ lines') =
      numbered number lines ++ numbered (number + lines.length) lines' := by
  rw [numbered, List.map_append, List.zipIdx_append, List.filter_append, List.length_map]
  rfl

theorem numbered_congr (h : lines.map Text.trim = lines'.map Text.trim) :
    numbered number lines = numbered number lines' := by
  rw [numbered, h, numbered]

theorem numbered_add (number k : Nat) (lines : List Text) :
    numbered (number + k) lines = (numbered number lines).map fun l => (l.1, l.2 + k) := by
  rw [numbered, Nat.add_comm, ← List.map_snd_add_zipIdx_eq_zipIdx, List.filter_map, numbered]
  rfl

/-- **A text holds what its trimmed lines hold.** -/
theorem ofText_eq (t : Text) : ofText t = ofNumbered (numbered 1 (t.splitOn '\n')) := by
  obtain ⟨init, last, hpieces⟩ :=
    (List.eq_nil_or_concat' (t.splitOn '\n')).resolve_left (List.splitOn_ne_nil _ _)
  have hreturns : ((init.map (dropReturn '\r')).map Text.trim) = init.map Text.trim := by
    rw [List.map_map]
    exact List.map_congr_left fun line _ => Text.trim_dropReturn line
  rw [ofText, ofLines_eq, Text.lines, linesWith, hpieces, List.dropLast_concat,
    List.getLast?_concat, Option.getD_some, numbered_append, numbered_append,
    numbered_congr hreturns, List.length_map]
  -- a last line that is empty is left out, and would not count
  split
  · next hlast =>
    rw [List.isEmpty_iff.1 hlast]
    rfl
  · rfl

/-! ### One text below the other -/

theorem ofNumbered_append (entries entries' : List (Text × Nat)) :
    ofNumbered (entries ++ entries') =
      { facts := (ofNumbered entries).facts ++ (ofNumbered entries').facts
        skipped := (ofNumbered entries).skipped ++ (ofNumbered entries').skipped } := by
  simp [ofNumbered]

end FactFile

/-- The line, with `k` more lines before it. -/
def SkippedLine.raise (k : Nat) (l : SkippedLine) : SkippedLine := { l with number := l.number + k }

namespace FactFile

variable {t t' : Text} {number : Nat} {entries : List (Text × Nat)}

theorem ofNumbered_add (k : Nat) (entries : List (Text × Nat)) :
    ofNumbered (entries.map fun l => (l.1, l.2 + k)) =
      { ofNumbered entries with skipped := (ofNumbered entries).skipped.map (·.raise k) } := by
  rw [ofNumbered, List.filterMap_map, List.filter_map, List.map_map, ofNumbered, List.map_map]
  rfl

/-- **One text below the other**: the facts of both and the skipped lines of both, those of the
second text with higher numbers. -/
theorem ofText_append (a b : Text) :
    ofText (a ++ '\n' :: b) =
      { facts := (ofText a).facts ++ (ofText b).facts
        skipped := (ofText a).skipped ++
          (ofText b).skipped.map (·.raise (a.count '\n' + 1)) } := by
  simp only [ofText_eq]
  rw [splitOn_append_cons, numbered_append, length_splitOn, numbered_add, ofNumbered_append,
    ofNumbered_add]

/-! ### Carriage returns -/

theorem ofText_concat_return (a : Text) : ofText (a ++ ['\r']) = ofText a := by
  induction a using Text.induction_lines with
  | single line hline =>
    have hreturn : '\n' ∉ line ++ ['\r'] := by simpa using hline
    have htrim : [line ++ ['\r']].map Text.trim = [line].map Text.trim := by
      rw [List.map_singleton, List.map_singleton, Text.trim_concat_return]
    rw [ofText_eq, ofText_eq, List.splitOn_eq_singleton hline, List.splitOn_eq_singleton hreturn,
      numbered_congr htrim]
  | feed line below _ ih =>
    rw [List.append_assoc, List.cons_append, ofText_append, ofText_append, ih]

/-- The second text is the first one with carriage returns before some line feeds. -/
inductive AddsReturns : Text → Text → Prop
  | nil : AddsReturns [] []
  | cons (c : Char) {t t' : Text} : AddsReturns t t' → AddsReturns (c :: t) (c :: t')
  | feed {t t' : Text} : AddsReturns t t' → AddsReturns ('\n' :: t) ('\r' :: '\n' :: t')

theorem ofText_append_addsReturns (h : AddsReturns t t') (a : Text) :
    ofText (a ++ t') = ofText (a ++ t) := by
  -- for every text before them, since this text takes the characters that both share
  induction h generalizing a with
  | nil => rfl
  | @cons c t t' _ ih => simpa using ih (a ++ [c])
  | @feed t t' _ ih =>
    have hbelow : ofText t' = ofText t := ih []
    have hcount : (a ++ ['\r']).count '\n' = a.count '\n' := by simp
    rw [List.append_cons, ofText_append, ofText_append, ofText_concat_return, hbelow, hcount]

/-- **Carriage returns before line feeds do not count.** -/
theorem ofText_addsReturns (h : AddsReturns t t') : ofText t' = ofText t :=
  ofText_append_addsReturns h []

/-! ### Every line counts once -/

/-- Is a trimmed line neither blank nor a comment? -/
def Counts (line : Text) : Prop := line ≠ [] ∧ ∀ c ∈ line.head?, c ≠ '%' ∧ c ≠ '#'

theorem isComment_eq_false_iff {line : Text} : isComment line = false ↔ Counts line := by
  cases line with
  | nil => simp [isComment, Counts]
  | cons c line => simp [isComment, Counts]

/-- What a text holds, accounted for by its trimmed lines that count, each with its number. -/
structure IsAccount (t : Text) (entries : List (Text × Nat)) (file : FactFile) : Prop where
  /-- The entries stand in the order of the lines. -/
  ascending : (entries.map Prod.snd).Pairwise (· < ·)
  /-- Every line that counts has its entry, and nothing else has. -/
  mem_iff : ∀ text number, (text, number) ∈ entries ↔
    Counts text ∧ ∃ line, t.HasLine number line ∧ Text.trim line = text
  /-- An entry that states a fact is among the facts. -/
  facts : file.facts = entries.filterMap fun l => Fact.ofLine? l.1
  /-- Any other entry is among the skipped lines. -/
  skipped : file.skipped =
    (entries.filter fun l => (Fact.ofLine? l.1).isNone).map fun l => ⟨l.2, l.1⟩

theorem IsAccount.size {file : FactFile} (h : IsAccount t entries file) :
    file.facts.length + file.skipped.length = entries.length := by
  rw [h.facts, h.skipped, List.length_filterMap_eq_countP, List.length_map,
    ← List.countP_eq_length_filter,
    List.length_eq_countP_add_countP fun l : Text × Nat => (Fact.ofLine? l.1).isSome]
  refine congrArg _ (List.countP_congr fun l _ => ?_)
  simp

theorem IsAccount.skipped_ascending {file : FactFile} (h : IsAccount t entries file) :
    (file.skipped.map (·.number)).Pairwise (· < ·) := by
  rw [h.skipped, List.map_map]
  exact h.ascending.sublist (List.filter_sublist.map Prod.snd)

theorem ascending_numbered (number : Nat) (lines : List Text) :
    ((numbered number lines).map Prod.snd).Pairwise (· < ·) := by
  have hall : (((lines.map Text.trim).zipIdx number).map Prod.snd).Pairwise (· < ·) := by
    rw [List.zipIdx_map_snd]
    exact List.pairwise_lt_range'
  exact hall.sublist (List.filter_sublist.map _)

theorem mem_numbered_iff {lines : List Text} {text : Text} {k : Nat} :
    (text, k) ∈ numbered number lines ↔
      Counts text ∧ number ≤ k ∧
        ∃ line, lines[k - number]? = some line ∧ Text.trim line = text := by
  rw [numbered, List.mem_filter, List.mk_mem_zipIdx_iff_le_and_getElem?_sub, List.getElem?_map,
    Bool.not_eq_true', isComment_eq_false_iff, Option.map_eq_some_iff, and_comm]

theorem isAccount_ofText (t : Text) : IsAccount t (numbered 1 (t.splitOn '\n')) (ofText t) where
  ascending := ascending_numbered 1 _
  mem_iff text number := by
    simp only [mem_numbered_iff, Text.hasLine_iff, exists_and_left, and_assoc]
  facts := by rw [ofText_eq, ofNumbered]
  skipped := by rw [ofText_eq, ofNumbered]

/-- **Every line that counts is accounted for once**, in the order of the lines, as a fact or as a
skipped line with its number.  Texts below each other hold what both of them hold, and carriage
returns before line feeds do not count. -/
theorem ofText_accounts :
    (∀ t, ∃ entries, IsAccount t entries (ofText t) ∧
      (ofText t).facts.length + (ofText t).skipped.length = entries.length ∧
      ((ofText t).skipped.map (·.number)).Pairwise (· < ·)) ∧
    (∀ a b, (ofText (a ++ '\n' :: b)).facts = (ofText a).facts ++ (ofText b).facts ∧
      (ofText (a ++ '\n' :: b)).skipped =
        (ofText a).skipped ++ (ofText b).skipped.map (·.raise (a.count '\n' + 1))) ∧
    ∀ t t', AddsReturns t t' → ofText t' = ofText t := by
  refine ⟨fun t => ?_, fun a b => ?_, fun t t' => ofText_addsReturns⟩
  · have haccount := isAccount_ofText t
    exact ⟨_, haccount, haccount.size, haccount.skipped_ascending⟩
  · rw [ofText_append]
    exact ⟨rfl, rfl⟩

/-- A comment, a blank line, a fact and a line that is none, with and without carriage returns. -/
theorem ofText_accounts_returns :
    let t := "% p\n\n p(a,b).\np(a)".toList
    let t' := "% p\r\n\n p(a,b).\r\np(a)".toList
    AddsReturns t t' ∧ ofText t' = ofText t ∧
      ofText t = ⟨[⟨['p'], ['a'], ['b']⟩], [⟨4, "p(a)".toList⟩]⟩ := by
  intro t t'
  have h : AddsReturns t t' := by
    repeat constructor
  exact ⟨h, ofText_accounts.2.2 t t' h, by decide +kernel⟩

end FactFile

end MinedRules
