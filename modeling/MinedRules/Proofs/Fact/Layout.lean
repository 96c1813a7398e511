import MinedRules.Fact
import MinedRules.Proofs.Text.Trimming
import Mathlib.Data.List.Basic

/-!
# How a line states a fact

A line states a fact if it is laid out as one (`Fact.Layout`): three names, the marks of a fact
between them, gaps around the marks, and anything behind the full stop.

* `Fact.ofLine?_eq_some_iff` : a fact is read from a line exactly if the line has a layout with it.
* `Fact.Layout.eq_of_line` : a line has at most one layout.  No word character is white space and no
  mark is either of them, so where a name or a gap ends is determined by what comes next.
* `Fact.ofLine?_append_stop` : what comes after the first full stop does not count.
-/

namespace MinedRules

/-! ### Classes -/

/-- The code points of white space. -/
def blankPoints : List Nat :=
  List.range' 0x9 5 ++ List.range' 0x2000 11 ++
    [0x20, 0x85, 0xA0, 0x1680, 0x2028, 0x2029, 0x202F, 0x205F, 0x3000]

theorem toNat_mem_blankPoints {c : Char} (h : isBlank c = true) : c.toNat ∈ blankPoints := by
  simp only [isBlank, Bool.or_eq_true, Bool.and_eq_true, decide_eq_true_eq, beq_iff_eq] at h
  simp only [blankPoints, List.mem_append, List.mem_range'_1, List.mem_cons, List.not_mem_nil,
    or_false]
  omega

theorem isWordChar_of_isBlank {c : Char} (h : isBlank c = true) : isWordChar c = false := by
  have hpoints : ∀ n ∈ blankPoints, wordRanges.contains n = false := by decide +kernel
  exact hpoints _ (toNat_mem_blankPoints h)

namespace Fact

/-- A name: word characters, at least one. -/
structure IsName (t : Text) : Prop where
  ne_nil : t ≠ []
  word : ∀ c ∈ t, isWordChar c = true

theorem isName_iff {t : Text} : IsName t ↔ t ≠ [] ∧ t.all isWordChar = true :=
  ⟨fun h => ⟨h.ne_nil, List.all_eq_true.2 h.word⟩, fun h => ⟨h.1, List.all_eq_true.1 h.2⟩⟩

instance (t : Text) : Decidable (IsName t) := decidable_of_iff _ isName_iff.symm

/-- White space, or nothing. -/
def IsGap (t : Text) : Prop := ∀ c ∈ t, isBlank c = true

instance (t : Text) : Decidable (IsGap t) :=
  decidable_of_iff (t.all isBlank = true) List.all_eq_true

/-- A character that neither a name nor a gap has. -/
structure IsMark (c : Char) : Prop where
  word : isWordChar c = false
  blank : isBlank c = false

theorem isMark_iff {c : Char} : IsMark c ↔ isWordChar c = false ∧ isBlank c = false :=
  ⟨fun h => ⟨h.word, h.blank⟩, fun h => ⟨h.1, h.2⟩⟩

instance (c : Char) : Decidable (IsMark c) := decidable_of_iff _ isMark_iff.symm

theorem isMark_open : IsMark '(' := by decide +kernel

theorem isMark_comma : IsMark ',' := by decide +kernel

theorem isMark_close : IsMark ')' := by decide +kernel

theorem isMark_stop : IsMark '.' := by decide +kernel

variable {gap gap' name name' t t' rest : Text} {m : Char}

theorem IsMark.head?_cons (hm : IsMark m) (t : Text) :
    ∀ c ∈ (m :: t).head?, isBlank c = false := by
  rintro c ⟨⟩
  exact hm.blank

theorem IsName.not_mem (h : IsName name) (hm : IsMark m) : m ∉ name := fun hmem =>
  Text.ne_of_class (h.word m hmem) hm.word rfl

theorem IsGap.not_mem (h : IsGap gap) (hm : IsMark m) : m ∉ gap := fun hmem =>
  Text.ne_of_class (h m hmem) hm.blank rfl

theorem IsName.head?_append (h : IsName name) (t : Text) :
    ∀ c ∈ (name ++ t).head?, isBlank c = false := by
  intro c hc
  rw [List.head?_append_of_ne_nil _ h.ne_nil] at hc
  have hword := h.word c (List.mem_of_mem_head? hc)
  rw [← Bool.not_eq_true]
  intro hblank
  rw [isWordChar_of_isBlank hblank] at hword
  exact absurd hword (by decide)

theorem IsGap.head?_append (h : IsGap gap) (hm : IsMark m) (t : Text) :
    ∀ c ∈ (gap ++ m :: t).head?, isWordChar c = false := by
  cases gap with
  | nil =>
    rintro c ⟨⟩
    exact hm.word
  | cons d gap =>
    rintro c ⟨⟩
    exact isWordChar_of_isBlank (h d List.mem_cons_self)

/-! ### Parts of a line -/

theorem name?_eq_some_iff : name? t = some (name, rest) ↔
    IsName name ∧ t = name ++ rest ∧ ∀ c ∈ rest.head?, isWordChar c = false := by
  rw [name?]
  constructor
  · intro h
    split at h
    · exact nomatch h
    · next hne =>
      obtain ⟨rfl, rfl⟩ := Prod.mk.inj (Option.some.inj h)
      exact ⟨⟨by simpa using hne, fun _ hc => List.mem_takeWhile_imp hc⟩,
        List.takeWhile_append_dropWhile.symm, Text.head?_dropWhile _ _⟩
  · rintro ⟨hname, rfl, hrest⟩
    rw [Text.takeWhile_append_of_stop hname.word hrest,
      Text.dropWhile_append_of_stop hname.word hrest, if_neg (by simpa using hname.ne_nil)]

theorem name?_trimStart_eq_some_iff : name? (Text.trimStart t) = some (name, rest) ↔
    ∃ gap, IsGap gap ∧ IsName name ∧ t = gap ++ (name ++ rest) ∧
      ∀ c ∈ rest.head?, isWordChar c = false := by
  rw [name?_eq_some_iff]
  constructor
  · rintro ⟨hname, ht, hrest⟩
    refine ⟨t.takeWhile isBlank, fun _ hc => List.mem_takeWhile_imp hc, hname, ?_, hrest⟩
    rw [← ht]
    exact List.takeWhile_append_dropWhile.symm
  · rintro ⟨gap, hgap, hname, rfl, hrest⟩
    exact ⟨hname, Text.dropWhile_append_of_stop hgap (hname.head?_append rest), hrest⟩

theorem mark?_eq_some_iff (hm : IsMark m) :
    mark? m t = some rest ↔ ∃ gap, IsGap gap ∧ t = gap ++ m :: rest := by
  rw [mark?]
  constructor
  · intro h
    split at h
    · next c u hcu =>
      split at h
      · next hc =>
        obtain rfl := Option.some.inj h
        refine ⟨t.takeWhile isBlank, fun _ hc => List.mem_takeWhile_imp hc, ?_⟩
        rw [← hc, ← hcu]
        exact List.takeWhile_append_dropWhile.symm
      · exact nomatch h
    · exact nomatch h
  · rintro ⟨gap, hgap, rfl⟩
    have hstart : Text.trimStart (gap ++ m :: rest) = m :: rest :=
      Text.dropWhile_append_of_stop hgap (hm.head?_cons rest)
    rw [hstart]
    exact if_pos rfl

/-! ### Layouts -/

/-- The parts of a line that states a fact: the fact, the gaps around its marks, and what comes after
the full stop. -/
@[ext]
structure Layout extends Fact where
  beforeOpen : Text
  afterOpen : Text
  beforeComma : Text
  afterComma : Text
  beforeClose : Text
  beforeStop : Text
  rest : Text

namespace Layout

/-- A line from the tail on. -/
def lineTail (l : Layout) : Text :=
  l.afterComma ++ (l.tail ++ (l.beforeClose ++ ')' :: (l.beforeStop ++ '.' :: l.rest)))

/-- The line that is laid out. -/
def line (l : Layout) : Text :=
  l.relation ++ (l.beforeOpen ++ '(' ::
    (l.afterOpen ++ (l.head ++ (l.beforeComma ++ ',' :: l.lineTail))))

/-- The names are names, and the gaps are gaps. -/
structure IsProper (l : Layout) : Prop where
  relation : IsName l.relation
  beforeOpen : IsGap l.beforeOpen
  afterOpen : IsGap l.afterOpen
  head : IsName l.head
  beforeComma : IsGap l.beforeComma
  afterComma : IsGap l.afterComma
  tail : IsName l.tail
  beforeClose : IsGap l.beforeClose
  beforeStop : IsGap l.beforeStop

end Layout

/-- **A fact is read from a line exactly if the line is laid out as one that states it.** -/
theorem ofLine?_eq_some_iff {line : Text} {f : Fact} :
    ofLine? line = some f ↔ ∃ l : Layout, l.IsProper ∧ l.line = line ∧ l.toFact = f := by
  simp only [ofLine?, Option.bind_eq_bind, Option.bind_eq_some_iff]
  constructor
  · rintro ⟨⟨relation, t₁⟩, hread₁, t₂, hopen, ⟨head, t₃⟩, hread₂, t₄, hcomma, ⟨tail, t₅⟩, hread₃,
      t₆, hclose, rest, hstop, hfact⟩
    obtain rfl := Option.some.inj hfact
    obtain ⟨hrelation, rfl, -⟩ := name?_eq_some_iff.1 hread₁
    obtain ⟨gap₁, hgap₁, rfl⟩ := (mark?_eq_some_iff isMark_open).1 hopen
    obtain ⟨gap₂, hgap₂, hhead, rfl, -⟩ := name?_trimStart_eq_some_iff.1 hread₂
    obtain ⟨gap₃, hgap₃, rfl⟩ := (mark?_eq_some_iff isMark_comma).1 hcomma
    obtain ⟨gap₄, hgap₄, htail, rfl, -⟩ := name?_trimStart_eq_some_iff.1 hread₃
    obtain ⟨gap₅, hgap₅, rfl⟩ := (mark?_eq_some_iff isMark_close).1 hclose
    obtain ⟨gap₆, hgap₆, rfl⟩ := (mark?_eq_some_iff isMark_stop).1 hstop
    exact ⟨⟨⟨relation, head, tail⟩, gap₁, gap₂, gap₃, gap₄, gap₅, gap₆, rest⟩,
      ⟨hrelation, hgap₁, hgap₂, hhead, hgap₃, hgap₄, htail, hgap₅, hgap₆⟩, rfl, rfl⟩
  · rintro ⟨l, h, rfl, rfl⟩
    refine ⟨(l.relation, _), name?_eq_some_iff.2 ⟨h.relation, rfl, ?_⟩, _,
      (mark?_eq_some_iff isMark_open).2 ⟨_, h.beforeOpen, rfl⟩, (l.head, _),
      name?_trimStart_eq_some_iff.2 ⟨_, h.afterOpen, h.head, rfl, ?_⟩, _,
      (mark?_eq_some_iff isMark_comma).2 ⟨_, h.beforeComma, rfl⟩, (l.tail, _),
      name?_trimStart_eq_some_iff.2 ⟨_, h.afterComma, h.tail, rfl, ?_⟩, _,
      (mark?_eq_some_iff isMark_close).2 ⟨_, h.beforeClose, rfl⟩, _,
      (mark?_eq_some_iff isMark_stop).2 ⟨_, h.beforeStop, rfl⟩, rfl⟩
    · exact h.beforeOpen.head?_append isMark_open _
    · exact h.beforeComma.head?_append isMark_comma _
    · exact h.beforeClose.head?_append isMark_close _

/-! ### Only one layout -/

theorem IsGap.append_inj (h : IsGap gap) (h' : IsGap gap') (hm : IsMark m)
    (heq : gap ++ m :: t = gap' ++ m :: t') : gap = gap' ∧ t = t' := by
  obtain ⟨hsame, hrest⟩ := Text.append_inj_of_stop h h' (hm.head?_cons t) (hm.head?_cons t') heq
  exact ⟨hsame, (List.cons.inj hrest).2⟩

theorem IsName.append_inj {after after' : Text} (hgap : IsGap gap) (hgap' : IsGap gap')
    (hname : IsName name) (hname' : IsName name') (hafter : IsGap after) (hafter' : IsGap after')
    (hm : IsMark m)
    (heq : gap ++ (name ++ (after ++ m :: t)) = gap' ++ (name' ++ (after' ++ m :: t'))) :
    gap = gap' ∧ name = name' ∧ after = after' ∧ t = t' := by
  obtain ⟨hbefore, hrest⟩ := Text.append_inj_of_stop hgap hgap' (hname.head?_append _)
    (hname'.head?_append _) heq
  obtain ⟨hsame, hend⟩ := Text.append_inj_of_stop hname.word hname'.word (hafter.head?_append hm t)
    (hafter'.head?_append hm t') hrest
  exact ⟨hbefore, hsame, hafter.append_inj hafter' hm hend⟩

theorem Layout.eq_of_line {l l' : Layout} (h : l.IsProper) (h' : l'.IsProper)
    (hline : l.line = l'.line) : l = l' := by
  have hnone : IsGap [] := by simp [IsGap]
  obtain ⟨-, hrelation, hbeforeOpen, hline⟩ := IsName.append_inj hnone hnone h.relation h'.relation
    h.beforeOpen h'.beforeOpen isMark_open hline
  obtain ⟨hafterOpen, hhead, hbeforeComma, hline⟩ := IsName.append_inj h.afterOpen h'.afterOpen h.head
    h'.head h.beforeComma h'.beforeComma isMark_comma hline
  obtain ⟨hafterComma, htail, hbeforeClose, hline⟩ := IsName.append_inj h.afterComma h'.afterComma
    h.tail h'.tail h.beforeClose h'.beforeClose isMark_close hline
  obtain ⟨hbeforeStop, hrest⟩ := h.beforeStop.append_inj h'.beforeStop isMark_stop hline
  exact Layout.ext hrelation hhead htail hbeforeOpen hafterOpen hbeforeComma hafterComma hbeforeClose
    hbeforeStop hrest

/-! ### What follows the full stop -/

theorem Layout.exists_stem {l : Layout} (h : l.IsProper) : ∃ stem, '.' ∉ stem ∧
    ∀ rest, Layout.line { l with rest := rest } = stem ++ '.' :: rest := by
  have hname : ∀ {name : Text}, IsName name → '.' ∉ name := fun h => h.not_mem isMark_stop
  have hgap : ∀ {gap : Text}, IsGap gap → '.' ∉ gap := fun h => h.not_mem isMark_stop
  refine ⟨l.relation ++ (l.beforeOpen ++ '(' :: (l.afterOpen ++ (l.head ++ (l.beforeComma ++ ',' ::
    (l.afterComma ++ (l.tail ++ (l.beforeClose ++ ')' :: l.beforeStop))))))), ?_, fun rest => ?_⟩
  · simp [hname h.relation, hname h.head, hname h.tail, hgap h.beforeOpen, hgap h.afterOpen,
      hgap h.beforeComma, hgap h.afterComma, hgap h.beforeClose, hgap h.beforeStop]
  · simp [line, lineTail]

theorem ofLine?_append_stop_eq_some {front rest' : Text} {f : Fact} (hfront : '.' ∉ front)
    (h : ofLine? (front ++ '.' :: rest) = some f) : ofLine? (front ++ '.' :: rest') = some f := by
  obtain ⟨l, hl, hline, rfl⟩ := ofLine?_eq_some_iff.1 h
  obtain ⟨stem, hstem, hlines⟩ := l.exists_stem hl
  -- the full stop of the layout is the first one
  obtain ⟨rfl, -⟩ := Text.append_cons_inj hfront hstem (hline.symm.trans (hlines l.rest))
  refine ofLine?_eq_some_iff.2 ⟨{ l with rest := rest' }, ?_, hlines rest', rfl⟩
  exact ⟨hl.relation, hl.beforeOpen, hl.afterOpen, hl.head, hl.beforeComma, hl.afterComma, hl.tail,
    hl.beforeClose, hl.beforeStop⟩

/-- **What follows the first full stop does not count.** -/
theorem ofLine?_append_stop {front : Text} (hfront : '.' ∉ front) (rest rest' : Text) :
    ofLine? (front ++ '.' :: rest) = ofLine? (front ++ '.' :: rest') :=
  Option.ext fun _ =>
    ⟨ofLine?_append_stop_eq_some hfront, ofLine?_append_stop_eq_some hfront⟩

/-- **A line states a fact exactly if it is laid out as one**, in one way only.  What follows the
first full stop does not count. -/
theorem ofLine?_laid_out :
    (∀ line f, ofLine? line = some f ↔ ∃ l : Layout, l.IsProper ∧ l.line = line ∧ l.toFact = f) ∧
      (∀ l l' : Layout, l.IsProper → l'.IsProper → l.line = l'.line → l = l') ∧
      ∀ front rest rest', '.' ∉ front →
        ofLine? (front ++ '.' :: rest) = ofLine? (front ++ '.' :: rest') :=
  ⟨fun _ _ => ofLine?_eq_some_iff, fun _ _ => Layout.eq_of_line,
    fun _ rest rest' h => ofLine?_append_stop h rest rest'⟩

/-- White space of several kinds, and letters outside of ASCII. -/
theorem ofLine?_laid_out_spaced :
    let l : Layout := ⟨⟨['é', '_'], ['1'], ['中']⟩, ['\u00a0'], [], ['\t', ' '], [], [], ['\u3000'],
      ['.', ' ', 'x']⟩
    l.IsProper ∧ ofLine? l.line = some ⟨['é', '_'], ['1'], ['中']⟩ ∧
      (∀ l' : Layout, l'.IsProper → l'.line = l.line → l' = l) ∧
      ofLine? "p(a,b).".toList = ofLine? "p(a,b). q(a, b, c)".toList := by
  intro l
  have hl : l.IsProper := by
    constructor <;> decide +kernel
  exact ⟨hl, (ofLine?_laid_out.1 _ _).2 ⟨l, hl, rfl, rfl⟩,
    fun l' hl' hline => ofLine?_laid_out.2.1 l' l hl' hl hline,
    ofLine?_laid_out.2.2 "p(a,b)".toList [] " q(a, b, c)".toList (by decide)⟩

end Fact

end MinedRules
