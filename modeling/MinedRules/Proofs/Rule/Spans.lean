import MinedRules.Proofs.Rule.Marking
import MinedRules.Proofs.Text.Boundaries

/-!
# Spans stay in range

The spans that `markVariables` puts into uppercase are found in the original text, and each is cut out
of a text that the spans before it have changed.  `uppercaseSpan` leaves a text alone where it cannot be
cut, so this module has a step that fails there (`uppercaseSpan?`) and shows that no run gets to fail.

* `exists_uppercaseSpan?_iff` : the step fails if the ends of the span are in the wrong order or do not
  stand between characters.
* `sameOffsets_uppercaseSpan` : a step moves no boundary and no parenthesis.
* `sameOffsets_markedAfter` : the same for a run.
* `markVariables_inRange` : every span is in range when its turn comes, and the run with checks gives
  the marked text.
-/

namespace MinedRules

variable {t m m' : Text} {c d : Char} {x : UInt8} {span : Nat × Nat} {spans pairs : List (Nat × Nat)}

/-! ### A step with checks -/

/-- The text with the bytes of one span in uppercase, if the span can be cut out of it. -/
def uppercaseSpan? (t : Text) (span : Nat × Nat) : Option Text :=
  if span.1 ≤ span.2 + 1 then
    (Text.span? span.1 span.2 t).map fun (front, middle, back) =>
      front ++ middle.map uppercase ++ back
  else none

/-- A span lies in a text, and both its ends are between characters. -/
structure InRange (t : Text) (span : Nat × Nat) : Prop where
  lt : span.1 < span.2
  last_lt : span.2 < Text.byteLength t
  first : t.isBoundary span.1 = true
  behind : t.isBoundary (span.2 + 1) = true

theorem eq_of_span?_eq_some {a b c : Text} {first last : Nat}
    (h : Text.span? first last t = some (a, b, c)) :
    t = a ++ (b ++ c) ∧ first = Text.byteLength a ∧ last + 1 - first = Text.byteLength b := by
  rw [Text.span?] at h
  split at h
  · simp at h
  · next front rest hcut =>
    split at h
    · simp at h
    · next middle back hcut' =>
      obtain ⟨rfl, h1⟩ := Text.cutAtByte?_eq_some_iff.1 hcut
      obtain ⟨rfl, h2⟩ := Text.cutAtByte?_eq_some_iff.1 hcut'
      obtain ⟨rfl, rfl, rfl⟩ : front = a ∧ middle = b ∧ back = c := by simpa using h
      exact ⟨rfl, h1, h2⟩

theorem isSpan_iff : IsSpan t span ↔
    span.1 ≤ span.2 + 1 ∧ t.isBoundary span.1 = true ∧ t.isBoundary (span.2 + 1) = true := by
  constructor
  · rintro ⟨a, b, c, rfl, h1, h2⟩
    refine ⟨by omega, h1 ▸ Text.isBoundary_byteLength _ _, Text.isBoundary_iff.2 ⟨a ++ b, c, ?_, ?_⟩⟩
    · rw [List.append_assoc]
    · rw [Text.byteLength_append, h2]
  · rintro ⟨hle, hfirst, hbehind⟩
    obtain ⟨a, rest, rfl, h1⟩ := Text.isBoundary_iff.1 hfirst
    obtain ⟨front, c, hfront, h2⟩ := Text.isBoundary_iff.1 hbehind
    -- the text before the first end is the shorter one of two prefixes
    have hprefix : a <+: front := by
      rcases List.append_eq_append_iff.1 hfront with ⟨b, rfl, -⟩ | ⟨b, rfl, -⟩
      · exact List.prefix_append _ _
      · rw [Text.byteLength_append] at h1
        have hb : Text.byteLength b = 0 := by omega
        exact ⟨[], by rw [Text.byteLength_eq_zero_iff.1 hb, List.append_nil, List.append_nil]⟩
    obtain ⟨b, rfl⟩ := hprefix
    rw [Text.byteLength_append] at h2
    exact ⟨a, b, c, by rw [hfront, List.append_assoc], h1, h2⟩

theorem uppercaseSpan?_eq_some (h : uppercaseSpan? t span = some m) : uppercaseSpan t span = m := by
  rw [uppercaseSpan?] at h
  split at h
  · obtain ⟨⟨front, middle, back⟩, hspan, rfl⟩ := Option.map_eq_some_iff.1 h
    rw [uppercaseSpan, hspan]
  · simp at h

/-- **A step with checks fails unless both ends of the span are between characters**, in their
order. -/
theorem exists_uppercaseSpan?_iff : (∃ m, uppercaseSpan? t span = some m) ↔
    span.1 ≤ span.2 + 1 ∧ t.isBoundary span.1 = true ∧ t.isBoundary (span.2 + 1) = true := by
  rw [← isSpan_iff]
  constructor
  · rintro ⟨m, h⟩
    rw [uppercaseSpan?] at h
    split at h
    · next hle =>
      obtain ⟨⟨a, b, c⟩, hspan, -⟩ := Option.map_eq_some_iff.1 h
      obtain ⟨rfl, h1, h2⟩ := eq_of_span?_eq_some hspan
      exact ⟨a, b, c, rfl, h1, by omega⟩
    · simp at h
  · rintro ⟨a, b, c, rfl, h1, h2⟩
    rw [uppercaseSpan?, if_pos (by omega), span?_append h1 h2]
    exact ⟨_, rfl⟩

theorem InRange.uppercaseSpan?_eq (h : InRange t span) :
    uppercaseSpan? t span = some (uppercaseSpan t span) := by
  have hlt := h.lt
  obtain ⟨m, hm⟩ := exists_uppercaseSpan?_iff.2 ⟨by omega, h.first, h.behind⟩
  rw [uppercaseSpan?_eq_some hm, hm]

theorem inRange_of_mem_parenPairs (h : parenPairs t = .ok pairs) : ∀ p ∈ pairs, InRange t p := by
  intro p hp
  obtain ⟨-, hfirst, hbehind⟩ := isSpan_iff.1 (isSpan_of_mem_parenPairs h p hp)
  exact ⟨(matched_of_mem_parenPairs h p hp).lt, Text.le_of_isBoundary hbehind, hfirst, hbehind⟩

/-! ### What a step keeps -/

/-- Offsets mean the same in both texts: these are equally long, characters begin at the same offsets
and the bytes of parentheses stand at the same ones. -/
structure SameOffsets (t m : Text) : Prop where
  byteLength : Text.byteLength m = Text.byteLength t
  boundary : ∀ n, m.isBoundary n = t.isBoundary n
  paren : ∀ (n : Nat) (x : UInt8), x = 0x28 ∨ x = 0x29 → (m.encode[n]? = some x ↔ t.encode[n]? = some x)

theorem SameOffsets.inRange (h : SameOffsets t m) (ht : InRange t span) : InRange m span where
  lt := ht.lt
  last_lt := h.byteLength ▸ ht.last_lt
  first := (h.boundary _).trans ht.first
  behind := (h.boundary _).trans ht.behind

theorem sameOffsets_refl (t : Text) : SameOffsets t t := ⟨rfl, fun _ => rfl, fun _ _ _ => .rfl⟩

theorem SameOffsets.trans (h : SameOffsets t m) (h' : SameOffsets m m') : SameOffsets t m' where
  byteLength := h'.byteLength.trans h.byteLength
  boundary n := (h'.boundary n).trans (h.boundary n)
  paren n x hx := (h'.paren n x hx).trans (h.paren n x hx)

theorem isBoundary_of_sameShape (h : List.Forall₂ SameShape t m) (n : Nat) :
    m.isBoundary n = t.isBoundary n := by
  induction h generalizing n with
  | nil => rfl
  | cons hcd _ ih => rw [Text.isBoundary_cons, Text.isBoundary_cons, hcd.1, ih]

theorem getElem?_utf8EncodeChar_of_sameShape (h : SameShape c d) (hx : x = 0x28 ∨ x = 0x29)
    (n : Nat) :
    (String.utf8EncodeChar d)[n]? = some x ↔ (String.utf8EncodeChar c)[n]? = some x := by
  obtain ⟨-, hopen, hclose⟩ := h
  by_cases h1 : c = '('
  · rw [h1, hopen.2 h1]
  · by_cases h2 : c = ')'
    · rw [h2, hclose.2 h2]
    · -- neither character has such a byte
      have hnot : ∀ {y : Char}, y ≠ '(' → y ≠ ')' → (String.utf8EncodeChar y)[n]? ≠ some x := by
        intro y hy1 hy2 hy
        obtain ⟨hx1, hx2⟩ := ne_of_mem_utf8EncodeChar hy1 hy2 x (List.mem_of_getElem? hy)
        exact hx.elim hx1 hx2
      exact iff_of_false (hnot (mt hopen.1 h1) (mt hclose.1 h2)) (hnot h1 h2)

theorem getElem?_encode_of_sameShape (h : List.Forall₂ SameShape t m) (hx : x = 0x28 ∨ x = 0x29)
    (n : Nat) : m.encode[n]? = some x ↔ t.encode[n]? = some x := by
  induction h generalizing n with
  | nil => rfl
  | cons hcd _ ih =>
    rw [Text.getElem?_encode_cons, Text.getElem?_encode_cons, hcd.1]
    split
    · exact getElem?_utf8EncodeChar_of_sameShape hcd hx n
    · exact ih _

theorem sameOffsets_of_sameShape (h : List.Forall₂ SameShape t m) : SameOffsets t m :=
  ⟨byteLength_of_sameShape h, isBoundary_of_sameShape h,
    fun n _ hx => getElem?_encode_of_sameShape h hx n⟩

/-- **A step moves nothing**: it maps the characters of the span one by one, and each keeps its
shape. -/
theorem sameOffsets_uppercaseSpan (t : Text) (span : Nat × Nat) :
    SameOffsets t (uppercaseSpan t span) := by
  have hself : ∀ a : Text, List.Forall₂ SameShape a a :=
    fun a => List.forall₂_same.2 fun c _ => sameShape_refl c
  rw [uppercaseSpan]
  split
  · next front middle back hspan =>
    obtain ⟨rfl, -, -⟩ := eq_of_span?_eq_some hspan
    have hmiddle : List.Forall₂ SameShape middle (middle.map uppercase) :=
      List.forall₂_map_right_iff.2 (List.forall₂_same.2 fun c _ => sameShape_uppercase c)
    rw [← List.append_assoc]
    exact sameOffsets_of_sameShape
      (List.rel_append (List.rel_append (hself front) hmiddle) (hself back))
  · exact sameOffsets_refl t

/-! ### Runs -/

/-- The text after the first `k` spans of a list. -/
def markedAfter (t : Text) (spans : List (Nat × Nat)) (k : Nat) : Text :=
  (spans.take k).foldl uppercaseSpan t

theorem sameOffsets_foldl (t : Text) (spans : List (Nat × Nat)) :
    SameOffsets t (spans.foldl uppercaseSpan t) := by
  induction spans generalizing t with
  | nil => exact sameOffsets_refl t
  | cons span spans ih => exact (sameOffsets_uppercaseSpan t span).trans (ih _)

theorem sameOffsets_markedAfter (t : Text) (spans : List (Nat × Nat)) (k : Nat) :
    SameOffsets t (markedAfter t spans k) := sameOffsets_foldl t _

/-- A run with checks comes to its end if all spans are in range of the text that it begins with. -/
theorem foldlM_uppercaseSpan? (h : ∀ p ∈ spans, InRange t p) :
    spans.foldlM uppercaseSpan? t = some (spans.foldl uppercaseSpan t) := by
  induction spans generalizing t with
  | nil => rfl
  | cons span spans ih =>
    obtain ⟨hspan, hspans⟩ := List.forall_mem_cons.1 h
    have hstep := sameOffsets_uppercaseSpan t span
    rw [List.foldlM_cons, hspan.uppercaseSpan?_eq, List.foldl_cons]
    exact ih fun p hp => hstep.inRange (hspans p hp)

/-- **No span is ever out of range**: the spans before it leave all offsets as they are, and so the run
with checks gives the marked text. -/
theorem markVariables_inRange (h : parenPairs t = .ok pairs) :
    (∀ k, SameOffsets t (markedAfter t pairs k) ∧
      ∀ span, pairs[k]? = some span → InRange (markedAfter t pairs k) span) ∧
    ∃ marked, pairs.foldlM uppercaseSpan? t = some marked ∧ markVariables t = .ok marked := by
  have hrange := inRange_of_mem_parenPairs h
  refine ⟨fun k => ?_, _, foldlM_uppercaseSpan? hrange, by rw [markVariables, h]⟩
  have hafter := sameOffsets_markedAfter t pairs k
  exact ⟨hafter, fun span hspan => hafter.inRange (hrange span (List.mem_of_getElem? hspan))⟩

/-- `ñ` is mapped by the inner span, and the outer one begins at the byte after `é`. -/
theorem markVariables_inRange_nested :
    let t := "é(ß(ñ),x)".toList
    let pairs := [(5, 8), (2, 11)]
    parenPairs t = .ok pairs ∧ markedAfter t pairs 1 = "é(ß(Ñ),x)".toList ∧
      InRange (markedAfter t pairs 1) (2, 11) ∧
      markVariables t = .ok "é(ß(Ñ),X)".toList := by
  intro t pairs
  have h : parenPairs t = .ok pairs := rfl
  obtain ⟨hafter, marked, hrun, hmarked⟩ := markVariables_inRange h
  have hresult : pairs.foldlM uppercaseSpan? t = some "é(ß(Ñ),X)".toList := by decide +kernel
  obtain rfl := Option.some.inj (hrun.symm.trans hresult)
  exact ⟨h, by decide +kernel, (hafter 1).2 (2, 11) rfl, hmarked⟩

end MinedRules
