import MinedRules.Proofs.Attempt.Lines
import MinedRules.Proofs.Conversion.Reading
import MinedRules.Proofs.Conversion.Tally
import Mathlib.Data.List.Count
import Mathlib.Data.List.Perm.Basic

/-!
# A conversion is the image of the rules

The clauses of a conversion are those that the rules of the record lines give, and its counts are
those of the lines and rules (`Conversion.IsImage`).  So it does not depend on the files that the
lines stand in, nor on their order, nor on the order of the rules in a record
(`Conversion.SameRecords`).

* `FileTree.convert_eq_ok_iff` : when a directory can be converted, and what the conversion is.
* `Conversion.Gives.exists_of_sameRecords` : the same records give the same, in some order.
* `FileTree.convert_image` : both properties of a conversion.
-/

namespace MinedRules

open Attempt (recordLines ofLine?)

namespace Conversion

variable {k : Canonicalizer} {lines lines' : List (List UInt8)} {attempts : List Attempt}
  {given given' : List (Option Text)}

/-! ### Records and what they give -/

/-- The record lines of files. -/
def linesOf (files : List (Text × List UInt8)) : List (List UInt8) :=
  files.flatMap fun f => recordLines f.2

/-- The rules of the records that lines describe. -/
def rulesOf (lines : List (List UInt8)) : List Text :=
  lines.flatMap fun line => ((ofLine? line).map Attempt.rules).getD []

/-- The lines describe the attempts, and each rule of these gives a clause, or nothing for a fact. -/
structure Gives (k : Canonicalizer) (lines : List (List UInt8)) (attempts : List Attempt)
    (given : List (Option Text)) : Prop where
  attempts_eq : lines.map ofLine? = attempts.map some
  given_eq : (attempts.flatMap Attempt.rules).map k.canonicalize = given.map .ok

theorem rulesOf_eq (h : lines.map ofLine? = attempts.map some) :
    rulesOf lines = attempts.flatMap Attempt.rules := by
  have hmap : rulesOf lines =
      (lines.map ofLine?).flatMap fun o => (o.map Attempt.rules).getD [] := by
    rw [List.flatMap_map]
    rfl
  rw [hmap, h, List.flatMap_map]
  rfl

theorem Gives.rulesOf_eq (h : Gives k lines attempts given) :
    rulesOf lines = attempts.flatMap Attempt.rules :=
  Conversion.rulesOf_eq h.attempts_eq

theorem mem_rulesOf {files : List (Text × List UInt8)} {rule : Text} :
    rule ∈ rulesOf (linesOf files) ↔
      ∃ f ∈ files, ∃ line ∈ recordLines f.2, ∃ a, ofLine? line = some a ∧ rule ∈ a.rules := by
  have hline : ∀ line, rule ∈ ((ofLine? line).map Attempt.rules).getD [] ↔
      ∃ a, ofLine? line = some a ∧ rule ∈ a.rules := fun line => by
    cases ofLine? line <;> simp
  simp only [rulesOf, linesOf, List.mem_flatMap, hline]
  constructor
  · rintro ⟨line, ⟨f, hf, hline⟩, ha⟩
    exact ⟨f, hf, line, hline, ha⟩
  · rintro ⟨f, hf, line, hline, ha⟩
    exact ⟨line, ⟨f, hf, hline⟩, ha⟩

/-! ### The image of the rules -/

theorem Gives.some_mem_iff (h : Gives k lines attempts given) {clause : Text} :
    some clause ∈ given ↔ ∃ rule ∈ rulesOf lines, k.canonicalize rule = .ok (some clause) := by
  have hok : some clause ∈ given ↔
      Except.ok (some clause) ∈ given.map (Except.ok (ε := RuleError)) :=
    (List.mem_map_of_injective fun _ _ => Except.ok.inj).symm
  rw [hok, ← h.given_eq, ← h.rulesOf_eq, List.mem_map]

theorem Gives.exists_ok (h : Gives k lines attempts given) {rule : Text}
    (hrule : rule ∈ rulesOf lines) : ∃ o, k.canonicalize rule = .ok o := by
  have hmem : k.canonicalize rule ∈ given.map .ok := by
    rw [← h.given_eq, ← h.rulesOf_eq]
    exact List.mem_map_of_mem hrule
  obtain ⟨o, -, ho⟩ := List.mem_map.1 hmem
  exact ⟨o, ho.symm⟩

/-- Two rules with these results do not give the same clause. -/
def Apart (x y : Except RuleError (Option Text)) : Prop :=
  ∀ clause, ¬ (x = .ok (some clause) ∧ y = .ok (some clause))

theorem apart_ok_iff {o o' : Option Text} :
    Apart (.ok o) (.ok o') ↔ ∀ b, o = some b → ∀ b', o' = some b' → b ≠ b' := by
  simp only [Apart, Except.ok.injEq]
  constructor
  · rintro h b rfl _ rfl rfl
    exact h b ⟨rfl, rfl⟩
  · rintro h clause ⟨rfl, rfl⟩
    exact h clause rfl clause rfl rfl

/-- The clauses are all different exactly if no two rules give the same one. -/
theorem Gives.nodup_iff (h : Gives k lines attempts given) :
    given.reduceOption.Nodup ↔ (rulesOf lines).Pairwise fun rule rule' =>
      Apart (k.canonicalize rule) (k.canonicalize rule') := by
  calc given.reduceOption.Nodup
      ↔ given.Pairwise fun o o' => ∀ b, o = some b → ∀ b', o' = some b' → b ≠ b' :=
        List.pairwise_filterMap
    _ ↔ given.Pairwise fun o o' => Apart (.ok o) (.ok o') := by simp only [apart_ok_iff]
    _ ↔ (given.map Except.ok).Pairwise Apart := List.pairwise_map.symm
    _ ↔ ((rulesOf lines).map k.canonicalize).Pairwise Apart := by
      rw [h.rulesOf_eq, h.given_eq]
    _ ↔ _ := List.pairwise_map

/-- What the conversion of files is: the image of the rules in them, and its counts. -/
structure IsImage (k : Canonicalizer) (files : List (Text × List UInt8)) (c : Conversion) : Prop where
  /-- Each record line describes an attempt. -/
  decodes : ∀ line ∈ linesOf files, ∃ a, ofLine? line = some a
  mem_iff : ∀ clause, clause ∈ c.ruleSet.clauses ↔
    ∃ f ∈ files, ∃ line ∈ recordLines f.2, ∃ a, ofLine? line = some a ∧
      ∃ rule ∈ a.rules, k.canonicalize rule = .ok (some clause)
  files_eq : c.statistics.files = files.length
  attempts_eq : c.statistics.attempts = (linesOf files).length
  rules_eq : c.statistics.rules = (rulesOf (linesOf files)).length
  factsSkipped_eq : c.statistics.factsSkipped =
    ((rulesOf (linesOf files)).map k.canonicalize).count (.ok none)
  clauses_add_factsSkipped : c.statistics.clauses + c.statistics.factsSkipped = c.statistics.rules
  size_le : c.ruleSet.size ≤ c.statistics.clauses
  /-- The set is smaller if two rules give the same clause. -/
  size_eq_iff : c.ruleSet.size = c.statistics.clauses ↔
    (rulesOf (linesOf files)).Pairwise fun rule rule' =>
      Apart (k.canonicalize rule) (k.canonicalize rule')

theorem length_reduceOption_add_count (given : List (Option Text)) :
    given.reduceOption.length + given.count none = given.length := by
  induction given with
  | nil => rfl
  | cons o given ih =>
    cases o with
    | none => rw [List.reduceOption_cons_of_none, List.count_cons_self, List.length_cons, ← ih,
        Nat.add_assoc]
    | some clause =>
      rw [List.reduceOption_cons_of_some, List.count_cons_of_ne (by simp), List.length_cons,
        List.length_cons, ← ih, Nat.add_right_comm]

/-- **The conversion of what the rules give is the image of the rules.** -/
theorem Gives.isImage {files : List (Text × List UInt8)}
    (h : Gives k (linesOf files) attempts given) :
    IsImage k files (ofGiven files.length attempts.length given) where
  decodes line hline := by
    have hmem : ofLine? line ∈ attempts.map some := h.attempts_eq ▸ List.mem_map_of_mem hline
    obtain ⟨a, -, ha⟩ := List.mem_map.1 hmem
    exact ⟨a, ha.symm⟩
  mem_iff clause := by
    rw [ofGiven, RuleSet.mem_ofList, List.reduceOption_mem_iff, h.some_mem_iff]
    simp only [mem_rulesOf]
    constructor
    · rintro ⟨rule, ⟨f, hf, line, hline, a, ha, hrule⟩, hclause⟩
      exact ⟨f, hf, line, hline, a, ha, rule, hrule, hclause⟩
    · rintro ⟨f, hf, line, hline, a, ha, rule, hrule, hclause⟩
      exact ⟨rule, ⟨f, hf, line, hline, a, ha, hrule⟩, hclause⟩
  files_eq := rfl
  attempts_eq := by
    have hlength := congrArg List.length h.attempts_eq
    rw [List.length_map, List.length_map] at hlength
    exact hlength.symm
  rules_eq := by
    have hlength := congrArg List.length h.given_eq
    rw [List.length_map, List.length_map, ← h.rulesOf_eq] at hlength
    exact hlength.symm
  factsSkipped_eq := by
    rw [h.rulesOf_eq, h.given_eq]
    exact (List.count_map_of_injective _ _ (fun _ _ => Except.ok.inj) none).symm
  clauses_add_factsSkipped := length_reduceOption_add_count given
  size_le := RuleSet.size_ofList_le given.reduceOption
  size_eq_iff := RuleSet.size_ofList_eq_iff.trans h.nodup_iff

/-! ### The same records in another order -/

/-- Both lines describe attempts with the same rules in some order, or none of them describes
one. -/
def SameRecord (line line' : List UInt8) : Prop :=
  Option.Rel (fun a a' : Attempt => a.rules.Perm a'.rules) (ofLine? line) (ofLine? line')

/-- The lines are the same records in some order. -/
def SameRecords (lines lines' : List (List UInt8)) : Prop :=
  ∃ m, lines.Perm m ∧ List.Forall₂ SameRecord m lines'

theorem SameRecord.refl (line : List UInt8) : SameRecord line line := by
  rw [SameRecord]
  cases ofLine? line with
  | none => exact .none
  | some a => exact .some (.refl _)

theorem SameRecord.symm {line line' : List UInt8} (h : SameRecord line line') :
    SameRecord line' line := by
  rw [SameRecord] at h ⊢
  generalize ofLine? line = o at h ⊢
  generalize ofLine? line' = o' at h ⊢
  cases h with
  | none => exact .none
  | some hrules => exact .some hrules.symm

theorem SameRecords.of_perm (h : lines.Perm lines') : SameRecords lines lines' :=
  ⟨lines', h, List.forall₂_same.2 fun line _ => .refl line⟩

theorem SameRecords.symm (h : SameRecords lines lines') : SameRecords lines' lines := by
  obtain ⟨m, hperm, hrecords⟩ := h
  have hcomp : Relation.Comp (List.Forall₂ SameRecord) List.Perm lines' lines :=
    ⟨m, hrecords.flip.imp fun _ _ => SameRecord.symm, hperm.symm⟩
  rwa [List.forall₂_comp_perm_eq_perm_comp_forall₂] at hcomp

theorem exists_perm_of_map_eq {α β γ : Type} {f : α → γ} {g : β → γ} {l l' : List α} {m : List β}
    (hperm : l.Perm l') (h : l.map f = m.map g) : ∃ m', l'.map f = m'.map g ∧ m.Perm m' := by
  have hmap : ∀ (l : List α) (m : List β),
      l.map f = m.map g ↔ List.Forall₂ (fun a b => f a = g b) l m := fun l m => by
    rw [← List.forall₂_map_right_iff, ← List.forall₂_map_left_iff, List.forall₂_eq_eq_eq]
  obtain ⟨m', hm', hperm'⟩ := List.perm_comp_forall₂ hperm.symm ((hmap l m).1 h)
  exact ⟨m', (hmap l' m').2 hm', hperm'.symm⟩

theorem exists_attempts_of_sameRecord (h : List.Forall₂ SameRecord lines lines')
    (hattempts : lines.map ofLine? = attempts.map some) :
    ∃ attempts' : List Attempt, lines'.map ofLine? = attempts'.map some ∧
      attempts'.length = attempts.length ∧
      (attempts.flatMap Attempt.rules).Perm (attempts'.flatMap Attempt.rules) := by
  induction h generalizing attempts with
  | nil =>
    obtain rfl := List.map_eq_nil_iff.1 hattempts.symm
    exact ⟨[], rfl, rfl, .nil⟩
  | @cons line line' lines lines' hline hlines ih =>
    -- the first line describes an attempt, so the line beside it does
    cases attempts with
    | nil => simp at hattempts
    | cons a attempts =>
      obtain ⟨ha, hrest⟩ := List.cons.inj hattempts
      rw [SameRecord, ha] at hline
      obtain ⟨a', ha', hrules⟩ : ∃ a', ofLine? line' = some a' ∧ a.rules.Perm a'.rules := by
        generalize ofLine? line' = o at hline
        cases hline with
        | some hrules => exact ⟨_, rfl, hrules⟩
      obtain ⟨attempts', hattempts', hlength, hperm⟩ := ih hrest
      exact ⟨a' :: attempts', by simp [ha', hattempts'], by simp [hlength], hrules.append hperm⟩

/-- **The same records give the same, in some order.** -/
theorem Gives.exists_of_sameRecords (hsame : SameRecords lines lines')
    (h : Gives k lines attempts given) : ∃ attempts' given', Gives k lines' attempts' given' ∧
      attempts'.length = attempts.length ∧ given.Perm given' := by
  obtain ⟨m, hperm, hrecords⟩ := hsame
  obtain ⟨as, has, hattempts⟩ := exists_perm_of_map_eq hperm h.attempts_eq
  obtain ⟨attempts', hattempts', hlength, hrules⟩ := exists_attempts_of_sameRecord hrecords has
  obtain ⟨given', hgiven', hperm'⟩ :=
    exists_perm_of_map_eq ((hattempts.flatMap_right Attempt.rules).trans hrules) h.given_eq
  exact ⟨attempts', given', ⟨hattempts', hgiven'⟩, hlength.trans hattempts.length_eq.symm, hperm'⟩

/-- What a conversion says of the records, however they are divided into files: the text of its
clauses, and its counts except for that of the files. -/
def output (c : Conversion) : Text × Statistics :=
  (c.ruleSet.render, { c.statistics with files := 0 })

theorem output_ofGiven (h : given.Perm given') (files files' n : Nat) :
    (ofGiven files n given).output = (ofGiven files' n given').output := by
  have hclauses : given.reduceOption.Perm given'.reduceOption := h.filterMap id
  simp only [output, ofGiven, RuleSet.ofList_perm hclauses, h.length_eq, h.count_eq,
    hclauses.length_eq]

/-- All lines describe records, all their rules give something, and this is the output. -/
def Outputs (k : Canonicalizer) (lines : List (List UInt8)) (o : Text × Statistics) : Prop :=
  ∃ attempts given, Gives k lines attempts given ∧ (ofGiven 0 attempts.length given).output = o

theorem Outputs.of_sameRecords {o : Text × Statistics} (hsame : SameRecords lines lines')
    (h : Outputs k lines o) : Outputs k lines' o := by
  obtain ⟨attempts, given, hgives, rfl⟩ := h
  obtain ⟨attempts', given', hgives', hlength, hperm⟩ := hgives.exists_of_sameRecords hsame
  exact ⟨attempts', given', hgives', by rw [hlength, output_ofGiven hperm.symm]⟩

end Conversion

namespace FileTree

open Conversion

variable {t : FileTree} {d : t.Directory} {dir : Path} {suffix : Text} {k : Canonicalizer}
  {c : Conversion}

theorem recordsIn_eq_ok_iff {f : Text × List UInt8} {r : Records} :
    recordsIn dir f = .ok r ↔
      r.path = dir.join f.1 ∧ (recordLines f.2).map ofLine? = r.attempts.map some := by
  rw [← Attempt.ofFile_eq_ok_iff (p := dir.join f.1), recordsIn]
  obtain ⟨p, as⟩ := r
  cases Attempt.ofFile (dir.join f.1) f.2 <;> simp [Except.map, eq_comm]

theorem mapM_recordsIn_cons_iff {f : Text × List UInt8} {files : List (Text × List UInt8)}
    {rs : List Records} : (f :: files).mapM (recordsIn dir) = .ok rs ↔
      ∃ r rs', recordsIn dir f = .ok r ∧ files.mapM (recordsIn dir) = .ok rs' ∧ rs = r :: rs' := by
  rw [List.mapM_cons]
  cases recordsIn dir f <;> cases files.mapM (recordsIn dir) <;>
    simp [bind, Except.bind, pure, Except.pure, eq_comm]

theorem of_mapM_recordsIn {files : List (Text × List UInt8)} {rs : List Records}
    (h : files.mapM (recordsIn dir) = .ok rs) : rs.length = files.length ∧
      (linesOf files).map ofLine? = (rs.flatMap Records.attempts).map some := by
  induction files generalizing rs with
  | nil =>
    obtain rfl := Except.ok.inj h
    exact ⟨rfl, rfl⟩
  | cons f files ih =>
    obtain ⟨r, rs, hr, hrs, rfl⟩ := mapM_recordsIn_cons_iff.1 h
    obtain ⟨hlength, hlines⟩ := ih hrs
    refine ⟨by simp [hlength], ?_⟩
    rw [linesOf, List.flatMap_cons, List.map_append, (recordsIn_eq_ok_iff.1 hr).2,
      List.flatMap_cons, List.map_append, ← hlines, linesOf]

theorem exists_mapM_recordsIn {files : List (Text × List UInt8)} {attempts : List Attempt}
    (h : (linesOf files).map ofLine? = attempts.map some) :
    ∃ rs, files.mapM (recordsIn dir) = .ok rs ∧ rs.flatMap Records.attempts = attempts := by
  induction files generalizing attempts with
  | nil =>
    obtain rfl := List.map_eq_nil_iff.1 h.symm
    exact ⟨[], rfl, rfl⟩
  | cons f files ih =>
    rw [linesOf, List.flatMap_cons, List.map_append] at h
    obtain ⟨first, rest, rfl, hfirst, hrest⟩ := List.append_eq_map_iff.1 h
    obtain ⟨rs, hrs, rfl⟩ := ih hrest.symm
    have hr : recordsIn dir f = .ok ⟨dir.join f.1, first⟩ :=
      recordsIn_eq_ok_iff.2 ⟨rfl, hfirst.symm⟩
    exact ⟨_, mapM_recordsIn_cons_iff.2 ⟨_, rs, hr, hrs, rfl⟩, rfl⟩

/-- **A directory can be converted exactly if its record lines describe attempts and the rules of
these give something**, and its conversion is the tally of what they give. -/
theorem convert_eq_ok_iff (h : t.Leads dir d) :
    t.convert dir suffix k = .ok c ↔ ∃ attempts given,
      Gives k (linesOf (t.filesIn d.location suffix)) attempts given ∧
        c = ofGiven (t.filesIn d.location suffix).length attempts.length given := by
  have hbind : t.convert dir suffix k = .ok c ↔ ∃ rs,
      (t.filesIn d.location suffix).mapM (recordsIn dir) = .ok rs ∧ ofRecords k rs = .ok c := by
    rw [convert_of_leads h]
    cases (t.filesIn d.location suffix).mapM (recordsIn dir) <;> simp [Except.bind]
  rw [hbind]
  constructor
  · rintro ⟨rs, hrs, hc⟩
    obtain ⟨given, hgiven, rfl⟩ := ofRecords_eq_ok_iff.1 hc
    obtain ⟨hlength, hlines⟩ := of_mapM_recordsIn hrs
    exact ⟨_, given, ⟨hlines, hgiven⟩, by rw [hlength]⟩
  · rintro ⟨attempts, given, hgives, rfl⟩
    obtain ⟨rs, hrs, rfl⟩ := exists_mapM_recordsIn hgives.attempts_eq
    refine ⟨rs, hrs, ofRecords_eq_ok_iff.2 ⟨given, hgives.given_eq, ?_⟩⟩
    rw [(of_mapM_recordsIn hrs).1]

theorem output_convert_eq_some_iff {files : List (Text × List UInt8)} {o : Text × Statistics}
    (h : t.Lists dir suffix files) :
    (t.convert dir suffix k).toOption.map output = some o ↔ Outputs k (linesOf files) o := by
  obtain ⟨d, hd, hperm⟩ := h.exists_perm
  have hlines : SameRecords (linesOf files) (linesOf (t.filesIn d.location suffix)) :=
    .of_perm (hperm.flatMap_right _)
  have hconvert : (t.convert dir suffix k).toOption.map output = some o ↔
      ∃ c, t.convert dir suffix k = .ok c ∧ c.output = o := by
    cases t.convert dir suffix k <;> simp [Except.toOption]
  rw [hconvert]
  constructor
  · rintro ⟨c, hc, rfl⟩
    obtain ⟨attempts, given, hgives, rfl⟩ := (convert_eq_ok_iff hd).1 hc
    exact Outputs.of_sameRecords hlines.symm ⟨attempts, given, hgives, output_ofGiven (.refl _) ..⟩
  · intro h
    obtain ⟨attempts, given, hgives, rfl⟩ := h.of_sameRecords hlines
    exact ⟨_, (convert_eq_ok_iff hd).2 ⟨attempts, given, hgives, rfl⟩, output_ofGiven (.refl _) ..⟩

/-- **A conversion is the image of the rules**, and the same records in any order, in whatever files
they are, convert to the same text and the same counts, or cannot be converted. -/
theorem convert_image (t : FileTree) (dir : Path) (suffix : Text) (k : Canonicalizer) :
    (∀ c, t.convert dir suffix k = .ok c →
      ∃ files, t.Lists dir suffix files ∧ IsImage k files c) ∧
    ∀ files, t.Lists dir suffix files →
      ∀ (t' : FileTree) (dir' : Path) (suffix' : Text) (files' : List (Text × List UInt8)),
        t'.Lists dir' suffix' files' → SameRecords (linesOf files) (linesOf files') →
        (t.convert dir suffix k).toOption.map output =
          (t'.convert dir' suffix' k).toOption.map output := by
  constructor
  · intro c hc
    obtain ⟨d, hd⟩ := leads_of_convert hc
    obtain ⟨attempts, given, hgives, rfl⟩ := (convert_eq_ok_iff hd).1 hc
    exact ⟨_, lists_filesIn hd suffix, hgives.isImage⟩
  · intro files hfiles t' dir' suffix' files' hfiles' hsame
    refine Option.ext fun o => ?_
    rw [output_convert_eq_some_iff hfiles, output_convert_eq_some_iff hfiles']
    exact ⟨.of_sameRecords hsame, .of_sameRecords hsame.symm⟩

/-- The record of the second file of one directory comes first in the only file of another one, with
its rules the other way round. -/
theorem convert_image_redistributed :
    let one := "\x7b'rules': ['p(x) <- q(x)', 'f(x) <- ']\x7d".toList
    let two := "\x7b\"rules\": [\"p(x) <- q(x)\", \"a(x) <- INV(x,y)\"]\x7d".toList
    let two' := "\x7b'rules': ['a(x) <- INV(x,y)', 'p(x) <- q(x)']\x7d".toList
    let dir := "/".toList
    let suffix := "ori.txt".toList
    let t := (((∅ : FileTree).create "/a_ori.txt".toList (Text.encode one)).2.create
      "/b_ori.txt".toList (Text.encode ("\n".toList ++ two))).2
    let t' := ((∅ : FileTree).create "/ori.txt".toList
      (Text.encode (two' ++ "\n".toList ++ one))).2
    (∃ c files, t.convert dir suffix {} = .ok c ∧ t.Lists dir suffix files ∧ IsImage {} files c) ∧
    (t.convert dir suffix {}).toOption.map output =
        (t'.convert dir suffix {}).toOption.map output ∧
      (t.convert dir suffix {}).toOption.map output =
        some ("a(X) :- (Y,X).\np(X) :- q(X).".toList,
          { attempts := 2, rules := 4, factsSkipped := 1, clauses := 3 }) := by
  intro one two two' dir suffix t t'
  have himage := convert_image t dir suffix {}
  have houtput : (t.convert dir suffix {}).toOption.map output =
      some ("a(X) :- (Y,X).\np(X) :- q(X).".toList,
        { attempts := 2, rules := 4, factsSkipped := 1, clauses := 3 }) := by decide +kernel
  have hfiles : t.Lists dir suffix (t.filesIn t.root.location suffix) :=
    lists_filesIn ⟨by decide, rfl⟩ suffix
  have hfiles' : t'.Lists dir suffix (t'.filesIn t'.root.location suffix) :=
    lists_filesIn ⟨by decide, rfl⟩ suffix
  have hlines : linesOf (t.filesIn t.root.location suffix) =
      [Text.encode one, Text.encode two] := by decide +kernel
  have hlines' : linesOf (t'.filesIn t'.root.location suffix) =
      [Text.encode two', Text.encode one] := by decide +kernel
  have htwo : SameRecord (Text.encode two) (Text.encode two') := by
    have h : ofLine? (Text.encode two) =
        some ⟨["p(x) <- q(x)".toList, "a(x) <- INV(x,y)".toList]⟩ := by decide +kernel
    have h' : ofLine? (Text.encode two') =
        some ⟨["a(x) <- INV(x,y)".toList, "p(x) <- q(x)".toList]⟩ := by decide +kernel
    rw [SameRecord, h, h']
    exact .some (.swap ..)
  have hsame : SameRecords (linesOf (t.filesIn t.root.location suffix))
      (linesOf (t'.filesIn t'.root.location suffix)) := by
    rw [hlines, hlines']
    exact ⟨_, .swap .., .cons htwo (.cons (.refl _) .nil)⟩
  refine ⟨?_, himage.2 _ hfiles t' dir suffix _ hfiles' hsame, houtput⟩
  cases hc : t.convert dir suffix {} with
  | error e => simp [hc, Except.toOption] at houtput
  | ok c =>
    obtain ⟨files, hlists, hc'⟩ := himage.1 c hc
    exact ⟨c, files, rfl, hlists, hc'⟩

end FileTree

end MinedRules
