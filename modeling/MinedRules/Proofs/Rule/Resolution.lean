import MinedRules.Proofs.Rule.Conservation
import MinedRules.Proofs.Text.Lines

/-!
# What resolving the markers of a clause comes to

The body of a clause begins behind its first neck, and the markers cut it into pieces
(`Text.Pieces`).  Every piece but the first one has to begin with an argument list of two parts
(`IsLiteral`).  The list is found by its signs: from the first parenthesis, which has to be an opening
one, to the first closing one.

* `swapArguments_eq_error_iff` : why a piece is refused (`Refused`).
* `swapPieces_eq_error_iff` : the first piece that is refused decides the error.
* `resolveInverse_outcome` : when a clause is resolved, what comes out, and the error if it is not.
-/

namespace MinedRules

/-- The list is the first one of the piece: there is no parenthesis before it, and no closing one in
it. -/
structure Application.IsFirstOf (a : Application) (piece : Text) : Prop where
  text : piece = a.name ++ '(' :: a.args ++ ')' :: a.rest
  name : ∀ c ∈ a.name, isParen c = false
  args : ')' ∉ a.args

/-- The piece has an opening parenthesis before its first closing one, and exactly one comma between
the two. -/
def IsLiteral (piece : Text) : Prop :=
  ∃ a : Application, a.IsFirstOf piece ∧ a.args.count ',' = 1

/-- The piece lacks one of the parentheses, or a closing one comes before all that are opened. -/
def LacksList (piece : Text) : Prop :=
  '(' ∉ piece ∨ ')' ∉ piece ∨ ∃ a b, piece = a ++ ')' :: b ∧ '(' ∉ a

/-- What is wrong with a piece: it has no argument list, or one that has not two parts. -/
inductive Refused (marker piece : Text) : RuleError → Prop
  | missing : LacksList piece → Refused marker piece (.missingArguments marker piece)
  | arity {a : Application} : a.IsFirstOf piece → a.args.count ',' ≠ 1 →
      Refused marker piece (.inverseArity marker (a.args.count ',' + 1) a.args)

/-- The second text is the first one with the two parts of its argument list exchanged and
trimmed. -/
def IsSwapped (piece swapped : Text) : Prop :=
  ∃ name first second rest, IsPair piece name first second rest ∧
    swapped = exchanged name first second rest

variable {marker piece : Text} {e : RuleError}

/-! ### The first list of a piece -/

theorem Application.ofText?_eq_some_iff_isFirstOf {a : Application} :
    ofText? piece = some a ↔ a.IsFirstOf piece := by
  rw [ofText?_eq_some_iff]
  exact ⟨fun ⟨htext, hname, hargs⟩ => ⟨htext, hname, hargs⟩,
    fun ⟨htext, hname, hargs⟩ => ⟨htext, hname, hargs⟩⟩

theorem Application.IsFirstOf.not_lacksList {a : Application} (h : a.IsFirstOf piece) :
    ¬ LacksList piece := by
  rintro (hopen | hclose | ⟨u, v, huv, hu⟩)
  · exact hopen (by simp [h.text])
  · exact hclose (by simp [h.text])
  · have hname : a.name ++ ['('] <+: piece := ⟨a.args ++ ')' :: a.rest, by simp [h.text]⟩
    have hfront : u ++ [')'] <+: piece := ⟨v, by simp [huv]⟩
    -- the longer one of these has the parenthesis of the other
    rcases List.prefix_or_prefix_of_prefix hname hfront with hpre | hpre
    · have hmem : '(' ∈ u ++ [')'] := hpre.subset (by simp)
      simp [hu] at hmem
    · have hmem : ')' ∈ a.name ++ ['('] := hpre.subset (by simp)
      have hparen := h.name ')' (by simpa using hmem)
      exact absurd hparen (by decide)

theorem exists_isFirstOf (h : ¬ LacksList piece) : ∃ a : Application, a.IsFirstOf piece := by
  simp only [LacksList, not_or, not_not] at h
  obtain ⟨hopen, hclose, hfirst⟩ := h
  obtain ⟨name, t, rfl, hname⟩ := List.eq_append_cons_of_mem hopen
  have hnoclose : ')' ∉ name := by
    intro hmem
    obtain ⟨u, v, rfl⟩ := List.append_of_mem hmem
    exact hfirst ⟨u, v ++ '(' :: t, by simp, fun hu => hname (by simp [hu])⟩
  have ht : ')' ∈ t := by simpa [hnoclose] using hclose
  obtain ⟨args, rest, rfl, hargs⟩ := List.eq_append_cons_of_mem ht
  refine ⟨⟨name, args, rest⟩, by simp, fun c hc => ?_, hargs⟩
  have h1 : c ≠ '(' := fun heq => hname (heq ▸ hc)
  have h2 : c ≠ ')' := fun heq => hnoclose (heq ▸ hc)
  simp [isParen, h1, h2]

/-! ### One piece -/

theorem swapArguments_of_lacksList (h : LacksList piece) :
    swapArguments marker piece = .error (.missingArguments marker piece) := by
  have hnone : Application.ofText? piece = none := by
    rw [Option.eq_none_iff_forall_ne_some]
    exact fun a ha => (Application.ofText?_eq_some_iff_isFirstOf.1 ha).not_lacksList h
  rw [swapArguments, hnone]

theorem swapArguments_of_isFirstOf {a : Application} (h : a.IsFirstOf piece)
    (hcount : a.args.count ',' ≠ 1) : swapArguments marker piece =
      .error (.inverseArity marker (a.args.count ',' + 1) a.args) := by
  have hlength := length_splitOn ',' a.args
  rw [swapArguments, Application.ofText?_eq_some_iff_isFirstOf.2 h]
  dsimp only
  split
  · next first second hpair =>
    rw [hpair] at hlength
    exact absurd (Nat.succ.inj hlength).symm hcount
  · rw [hlength]

theorem swapArguments_of_refused (h : Refused marker piece e) :
    swapArguments marker piece = .error e := by
  cases h with
  | missing h => exact swapArguments_of_lacksList h
  | arity h hcount => exact swapArguments_of_isFirstOf h hcount

theorem exists_swapArguments (h : IsLiteral piece) : ∃ s, swapArguments marker piece = .ok s := by
  obtain ⟨a, ha, hcount⟩ := h
  obtain ⟨first, second, hparts⟩ :=
    List.length_eq_two.1 ((length_splitOn ',' a.args).trans (by rw [hcount]))
  rw [swapArguments, Application.ofText?_eq_some_iff_isFirstOf.2 ha]
  simp only [hparts]
  exact ⟨_, rfl⟩

theorem isLiteral_or_refused (marker piece : Text) : IsLiteral piece ∨ ∃ e, Refused marker piece e := by
  by_cases hlacks : LacksList piece
  · exact .inr ⟨_, .missing hlacks⟩
  · obtain ⟨a, ha⟩ := exists_isFirstOf hlacks
    by_cases hcount : a.args.count ',' = 1
    · exact .inl ⟨a, ha, hcount⟩
    · exact .inr ⟨_, .arity ha hcount⟩

theorem swapArguments_eq_error_iff :
    swapArguments marker piece = .error e ↔ Refused marker piece e := by
  refine ⟨fun h => ?_, swapArguments_of_refused⟩
  rcases isLiteral_or_refused marker piece with hliteral | ⟨e', he'⟩
  · obtain ⟨s, hs⟩ := exists_swapArguments hliteral
    exact absurd (h.symm.trans hs) (by simp)
  · obtain rfl := Except.error.inj ((swapArguments_of_refused he').symm.trans h)
    exact he'

theorem isLiteral_iff : IsLiteral piece ↔ ∃ s, swapArguments marker piece = .ok s := by
  refine ⟨exists_swapArguments, fun ⟨s, hs⟩ => ?_⟩
  rcases isLiteral_or_refused marker piece with hliteral | ⟨e, he⟩
  · exact hliteral
  · exact absurd ((swapArguments_of_refused he).symm.trans hs) (by simp)

/-! ### All pieces -/

section Pieces

variable {pieces : List Text} {s : Text}

theorem swapPieces_cons_of_error (h : swapArguments marker piece = .error e) :
    swapPieces marker (piece :: pieces) = .error e := by
  rw [swapPieces, h]

theorem swapPieces_cons_eq_error_iff (h : swapArguments marker piece = .ok s) :
    swapPieces marker (piece :: pieces) = .error e ↔ swapPieces marker pieces = .error e := by
  rw [swapPieces, h]
  cases swapPieces marker pieces <;> simp

/-- **The first piece that is refused decides the error.** -/
theorem swapPieces_eq_error_iff : swapPieces marker pieces = .error e ↔
    ∃ good bad later, pieces = good ++ bad :: later ∧ (∀ p ∈ good, IsLiteral p) ∧
      Refused marker bad e := by
  constructor
  · intro h
    induction pieces with
    | nil => simp [swapPieces] at h
    | cons piece pieces ih =>
      cases hs : swapArguments marker piece with
      | error e' =>
        obtain rfl := Except.error.inj ((swapPieces_cons_of_error hs).symm.trans h)
        exact ⟨[], piece, pieces, rfl, by simp, swapArguments_eq_error_iff.1 hs⟩
      | ok s =>
        obtain ⟨good, bad, later, rfl, hgood, hbad⟩ := ih ((swapPieces_cons_eq_error_iff hs).1 h)
        exact ⟨piece :: good, bad, later, rfl,
          List.forall_mem_cons.2 ⟨isLiteral_iff.2 ⟨s, hs⟩, hgood⟩, hbad⟩
  · rintro ⟨good, bad, later, rfl, hgood, hbad⟩
    induction good with
    | nil => exact swapPieces_cons_of_error (swapArguments_eq_error_iff.2 hbad)
    | cons piece good ih =>
      rw [List.forall_mem_cons] at hgood
      obtain ⟨s, hs⟩ := isLiteral_iff.1 hgood.1
      exact (swapPieces_cons_eq_error_iff hs).2 (ih hgood.2)

theorem swapPieces_eq_ok_iff_isSwapped : swapPieces marker pieces = .ok s ↔
    ∃ swaps, List.Forall₂ IsSwapped pieces swaps ∧ s = swaps.flatten := by
  simp only [swapPieces_eq_ok_iff, swapArguments_eq_ok_iff]
  rfl

theorem exists_swapPieces_iff :
    (∃ s, swapPieces marker pieces = .ok s) ↔ ∀ p ∈ pieces, IsLiteral p := by
  constructor
  · rintro ⟨s, hs⟩
    obtain ⟨swaps, hall, -⟩ := swapPieces_eq_ok_iff.1 hs
    clear hs
    induction hall with
    | nil => simp
    | cons hq _ ih => exact List.forall_mem_cons.2 ⟨isLiteral_iff.2 ⟨_, hq⟩, ih⟩
  · intro h
    cases hs : swapPieces marker pieces with
    | ok s => exact ⟨s, rfl⟩
    | error e =>
      obtain ⟨good, bad, later, rfl, -, hbad⟩ := swapPieces_eq_error_iff.1 hs
      obtain ⟨s, hbad'⟩ := isLiteral_iff.1 (h bad (by simp))
      exact absurd (hbad'.symm.trans (swapArguments_eq_error_iff.2 hbad)) (by simp)

end Pieces

/-! ### The clause -/

section Clause

variable {clause head body c : Text} {pieces : List Text}

theorem resolveInverse_of_cut (hcut : Text.cut? neck clause = some (head, body))
    (hsplit : Text.split marker body = piece :: pieces) :
    resolveInverse marker clause = (swapPieces marker pieces).map fun s =>
      Text.trimEnd head ++ spacedNeck ++ Text.trimStart (piece ++ s) := by
  rw [resolveInverse, hcut]
  simp only [hsplit, List.tail_cons, List.headD_cons]
  cases swapPieces marker pieces with
  | error e => rfl
  | ok s => simp [Except.map, spacedNeck]

theorem resolveInverse_eq_ok_iff_of_cut (hcut : Text.cut? neck clause = some (head, body))
    (hsplit : Text.split marker body = piece :: pieces) : resolveInverse marker clause = .ok c ↔
      ∃ swaps, List.Forall₂ IsSwapped pieces swaps ∧
        c = Text.trimEnd head ++ spacedNeck ++ Text.trimStart (piece ++ swaps.flatten) := by
  rw [resolveInverse_of_cut hcut hsplit]
  constructor
  · intro h
    cases hs : swapPieces marker pieces with
    | error e => simp [hs, Except.map] at h
    | ok s =>
      obtain ⟨swaps, hall, rfl⟩ := swapPieces_eq_ok_iff_isSwapped.1 hs
      rw [hs] at h
      exact ⟨swaps, hall, (Except.ok.inj h).symm⟩
  · rintro ⟨swaps, hall, rfl⟩
    rw [swapPieces_eq_ok_iff_isSwapped.2 ⟨swaps, hall, rfl⟩]
    rfl

theorem resolveInverse_eq_missing_iff :
    resolveInverse marker clause = .error .missingImplication ↔ ¬ neck <:+: clause := by
  rw [← Text.cut?_eq_none_iff]
  cases hcut : Text.cut? neck clause with
  | none => simp [resolveInverse, hcut]
  | some parts =>
    obtain ⟨head, body⟩ := parts
    obtain ⟨piece, pieces, hsplit⟩ := List.exists_cons_of_ne_nil (Text.split_ne_nil marker body)
    rw [resolveInverse_of_cut hcut hsplit]
    cases hs : swapPieces marker pieces with
    | ok s => simp [Except.map]
    | error e =>
      -- what a piece is refused for is another error
      obtain ⟨good, bad, later, -, -, hbad⟩ := swapPieces_eq_error_iff.1 hs
      cases hbad <;> simp [Except.map]

theorem exists_parts (hmarker : marker ≠ []) (h : neck <:+: clause) :
    ∃ head body piece pieces, clause = head ++ neck ++ body ∧ ¬ neck <:+: head ∧
      Text.Pieces marker body (piece :: pieces) := by
  cases hcut : Text.cut? neck clause with
  | none => exact absurd h (Text.cut?_eq_none_iff.1 hcut)
  | some parts =>
    obtain ⟨head, body⟩ := parts
    obtain ⟨htext, hclear⟩ := (Text.cut?_eq_some_iff (by decide)).1 hcut
    obtain ⟨piece, pieces, hsplit⟩ := List.exists_cons_of_ne_nil (Text.split_ne_nil marker body)
    exact ⟨head, body, piece, pieces, htext, hclear.not_infix, (Text.split_eq_iff hmarker).1 hsplit⟩

/-- **What resolving the markers comes to.**  A clause without a neck is refused for this.  Otherwise let
`head` and `body` be its parts around the first neck, and `piece :: pieces` those of the body between the
markers.  The clause is resolved if and only if each of `pieces` has an argument list of two parts, and
then these are exchanged and nothing else is changed but white space around the neck.  If it is not
resolved, the error says what is wrong with the first of them that has no such list. -/
theorem resolveInverse_outcome (hmarker : marker ≠ []) (clause : Text) :
    (resolveInverse marker clause = .error .missingImplication ↔ ¬ neck <:+: clause) ∧
    (neck <:+: clause → ∃ head body piece pieces, clause = head ++ neck ++ body ∧
      ¬ neck <:+: head ∧ Text.Pieces marker body (piece :: pieces)) ∧
    ∀ head body piece pieces, clause = head ++ neck ++ body → ¬ neck <:+: head →
      Text.Pieces marker body (piece :: pieces) →
      ((∃ c, resolveInverse marker clause = .ok c) ↔ ∀ p ∈ pieces, IsLiteral p) ∧
      (∀ c, resolveInverse marker clause = .ok c ↔ ∃ swaps, List.Forall₂ IsSwapped pieces swaps ∧
        c = Text.trimEnd head ++ spacedNeck ++ Text.trimStart (piece ++ swaps.flatten)) ∧
      ∀ e, resolveInverse marker clause = .error e ↔ ∃ good bad later,
        pieces = good ++ bad :: later ∧ (∀ p ∈ good, IsLiteral p) ∧ Refused marker bad e := by
  refine ⟨resolveInverse_eq_missing_iff, exists_parts hmarker, ?_⟩
  intro head body piece pieces htext hhead hpieces
  have hclear : Text.Clear neck head := Text.clear_of_not_infix (by decide) hhead
  have hcut : Text.cut? neck clause = some (head, body) := by
    rw [htext]
    exact Text.cut?_append (by decide) hclear
  have hsplit := (Text.split_eq_iff hmarker).2 hpieces
  have hresolve := resolveInverse_of_cut hcut hsplit
  refine ⟨?_, fun c => resolveInverse_eq_ok_iff_of_cut hcut hsplit, fun e => ?_⟩
  · rw [hresolve, ← exists_swapPieces_iff]
    cases swapPieces marker pieces <;> simp [Except.map]
  · rw [hresolve, ← swapPieces_eq_error_iff]
    cases swapPieces marker pieces <;> simp [Except.map]

/-- The marker overlaps with itself and stands in the head, too.  The first marked literal is in order,
and the second one has only one argument. -/
theorem resolveInverse_outcome_overlapping :
    let marker := "II".toList
    let head := "pII(X) ".toList
    let body := " q(X) , IIIr(A, f) , IIs(B) , II.".toList
    let pieces := ["Ir(A, f) , ".toList, "s(B) , ".toList, ".".toList]
    marker ≠ [] ∧ ¬ neck <:+: head ∧ Text.Pieces marker body (" q(X) , ".toList :: pieces) ∧
      resolveInverse marker (head ++ neck ++ body) = .error (.inverseArity marker 1 "B".toList) := by
  intro marker head body pieces
  have hmarker : marker ≠ [] := by decide
  have hhead : ¬ neck <:+: head := by decide
  have hpieces : Text.Pieces marker body (" q(X) , ".toList :: pieces) :=
    (Text.split_eq_iff hmarker).1 (by decide +kernel)
  have hgood : IsLiteral "Ir(A, f) , ".toList :=
    ⟨⟨"Ir".toList, "A, f".toList, " , ".toList⟩, ⟨by decide, by simp [isParen], by decide⟩,
      by decide⟩
  have hbad : Refused marker "s(B) , ".toList (.inverseArity marker 1 "B".toList) :=
    .arity (a := ⟨"s".toList, "B".toList, " , ".toList⟩)
      ⟨by decide, by simp [isParen], by decide⟩ (by decide)
  obtain ⟨-, -, houtcome⟩ := resolveInverse_outcome hmarker (head ++ neck ++ body)
  obtain ⟨-, -, herror⟩ := houtcome head body _ pieces rfl hhead hpieces
  exact ⟨hmarker, hhead, hpieces,
    (herror _).2 ⟨["Ir(A, f) , ".toList], _, [".".toList], rfl, by simpa using hgood, hbad⟩⟩

end Clause

end MinedRules
