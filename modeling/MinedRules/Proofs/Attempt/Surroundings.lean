import MinedRules.Proofs.Attempt.Records
import MinedRules.Proofs.Text.Behind
import MinedRules.Proofs.Text.Layers

/-!
# Blanks around a record

A line is tried as JSON with the blanks around it, and as a literal without them.  Neither reader can
tell whether the blanks are there: JSON skips those before the value, and no value of JSON goes on
with a blank or is completed by one (`Json.value?_overlooks`); of the literal, positions are counted
in the trimmed line.

* `Json.read?_surrounded` : the tree of a text does not depend on the blanks around it.
* `Attempt.decode_surrounded` : neither do the rules of a line or the error.
-/

namespace MinedRules

open Literal (Blanks)
open Text (LeavesEnd Overlooks followedBy skipBlanks_behind)

variable {back t rest : Text}

theorem Literal.Blanks.head? (h : Blanks back) {p : Char → Bool}
    (hp : ∀ c, isPlainBlank c = true → p c = false) : ∀ c ∈ back.head?, p c = false :=
  fun c hc => hp c (Literal.blanks_iff.1 h c (List.mem_of_mem_head? hc))

theorem isDigitIn_of_isPlainBlank (base : Nat) (c : Char) (h : isPlainBlank c = true) :
    isDigitIn base c = false := by
  rcases Literal.isPlainBlank_cases h with rfl | rfl | rfl | rfl <;> rfl

theorem isDigit_of_isPlainBlank (c : Char) (h : isPlainBlank c = true) : c.isDigit = false :=
  (Attempt.isDigitIn_ten c).symm.trans (isDigitIn_of_isPlainBlank 10 c h)

/-- A text with blanks behind it begins with a word that has none only if it does so without them. -/
theorem Literal.Blanks.append_ne_append (h : Blanks back) {word : Text}
    (hword : ∀ c ∈ word, isPlainBlank c = false) (ht : ∀ u, t ≠ word ++ u) (u : Text) :
    t ++ back ≠ word ++ u := by
  intro hu
  rcases List.append_eq_append_iff.1 hu with ⟨w, hw, hback⟩ | ⟨w, rfl, -⟩
  · cases w with
    | nil => exact ht [] (by rw [hw, List.append_nil, List.append_nil])
    | cons c w =>
      have hc := Literal.blanks_iff.1 h c (by rw [hback]; exact List.mem_cons_self)
      rw [hword c (by rw [hw]; simp)] at hc
      exact absurd hc (by decide)
  · exact ht w rfl

theorem Literal.Blanks.append_ne_cons (h : Blanks back) {c : Char} (hc : isPlainBlank c = false)
    (ht : ∀ u, t ≠ c :: u) : ∀ u, t ++ back ≠ c :: u :=
  h.append_ne_append (List.forall_mem_singleton.2 hc) ht

namespace Json

/-! ### Numbers -/

theorem skipDigits?_append (hback : Blanks back) (t : Text) :
    skipDigits? (t ++ back) = (skipDigits? t).map (· ++ back) := by
  have hstop := hback.head? isDigit_of_isPlainBlank
  cases t with
  | nil =>
    cases back with
    | nil => rfl
    | cons b bs =>
      rw [List.nil_append, skipDigits?, hstop b rfl]
      rfl
  | cons c u =>
    rw [List.cons_append, skipDigits?, skipDigits?]
    split
    · rw [Option.map_some, Text.dropWhile_append_of_head? hstop]
    · rfl

theorem skipInteger?_append (hback : Blanks back) (t : Text) :
    skipInteger? (t ++ back) = (skipInteger? t).map (· ++ back) := by
  by_cases hzero : ∃ u, t = '0' :: u
  · obtain ⟨u, rfl⟩ := hzero
    have hhead : (u ++ back).head?.any Char.isDigit = u.head?.any Char.isDigit := by
      cases u with
      | nil =>
        cases back with
        | nil => rfl
        | cons b bs => exact hback.head? isDigit_of_isPlainBlank b rfl
      | cons c u => rfl
    rw [List.cons_append, skipInteger?_zero, skipInteger?_zero, hhead]
    split <;> rfl
  · have hne : ∀ u, t ≠ '0' :: u := fun u hu => hzero ⟨u, hu⟩
    rw [skipInteger?_of_ne hne, skipInteger?_of_ne (hback.append_ne_cons (by decide) hne),
      skipDigits?_append hback]

theorem skipFraction?_append (hback : Blanks back) (t : Text) :
    skipFraction? (t ++ back) = (skipFraction? t).map (· ++ back) := by
  by_cases hpoint : ∃ u, t = '.' :: u
  · obtain ⟨u, rfl⟩ := hpoint
    exact skipDigits?_append hback u
  · have hne : ∀ u, t ≠ '.' :: u := fun u hu => hpoint ⟨u, hu⟩
    rw [skipFraction?_of_ne hne, skipFraction?_of_ne (hback.append_ne_cons (by decide) hne)]
    rfl

theorem spanSign_behind (hback : Blanks back) (t : Text) :
    (Text.spanSign (t ++ back)).2 = (Text.spanSign t).2 ++ back := by
  by_cases hminus : ∃ u, t = '-' :: u
  · obtain ⟨u, rfl⟩ := hminus
    rfl
  by_cases hplus : ∃ u, t = '+' :: u
  · obtain ⟨u, rfl⟩ := hplus
    rfl
  have h1 : ∀ u, t ≠ '-' :: u := fun u hu => hminus ⟨u, hu⟩
  have h2 : ∀ u, t ≠ '+' :: u := fun u hu => hplus ⟨u, hu⟩
  rw [Numeral.spanSign_of_ne h1 h2, Numeral.spanSign_of_ne
    (hback.append_ne_cons (by decide) h1) (hback.append_ne_cons (by decide) h2)]

theorem skipExponent?_append (hback : Blanks back) (t : Text) :
    skipExponent? (t ++ back) = (skipExponent? t).map (· ++ back) := by
  cases t with
  | nil =>
    cases back with
    | nil => rfl
    | cons b bs =>
      rcases hback.cases List.mem_cons_self with rfl | rfl | rfl | rfl <;>
        rfl
  | cons c u =>
    rw [List.cons_append, skipExponent?_cons, skipExponent?_cons]
    split
    · rw [spanSign_behind hback, skipDigits?_append hback]
    · rfl

theorem skipUnsigned?_append (hback : Blanks back) (t : Text) :
    skipUnsigned? (t ++ back) = (skipUnsigned? t).map (· ++ back) := by
  rw [skipUnsigned?, skipUnsigned?, skipInteger?_append hback]
  cases skipInteger? t with
  | none => rfl
  | some r =>
    simp only [Option.map_some, Option.bind_some, skipFraction?_append hback]
    cases skipFraction? r with
    | none => rfl
    | some r' => exact skipExponent?_append hback r'

theorem skipNumber?_append (hback : Blanks back) (t : Text) :
    skipNumber? (t ++ back) = (skipNumber? t).map (· ++ back) := by
  by_cases hminus : ∃ u, t = '-' :: u
  · obtain ⟨u, rfl⟩ := hminus
    rw [List.cons_append, skipNumber?_minus, skipNumber?_minus, skipUnsigned?_append hback]
  · have hne : ∀ u, t ≠ '-' :: u := fun u hu => hminus ⟨u, hu⟩
    rw [skipNumber?_of_ne hne, skipNumber?_of_ne (hback.append_ne_cons (by decide) hne),
      skipUnsigned?_append hback]

theorem skipAtom?_append (hback : Blanks back) (t : Text) :
    skipAtom? (t ++ back) = (skipAtom? t).map (· ++ back) := by
  by_cases hname : ∃ name ∈ names, ∃ u, t = name ++ u
  · obtain ⟨name, hname, u, rfl⟩ := hname
    rw [List.append_assoc, skipAtom?_name hname, skipAtom?_name hname]
    rfl
  · have hne : ∀ name ∈ names, ∀ u, t ≠ name ++ u := fun name h u hu => hname ⟨name, h, u, hu⟩
    have hsolid : ∀ name ∈ names, ∀ c ∈ name, isPlainBlank c = false := by
      simp [names, isPlainBlank]
    rw [skipAtom?_of_no_name hne, skipAtom?_of_no_name fun name h =>
      hback.append_ne_append (hsolid name h) (hne name h), skipNumber?_append hback]

/-! ### Strings -/

theorem hex4?_append (hback : Blanks back) (t : Text) : hex4? (t ++ back) = hex4? t := by
  have hstop : ∀ n, (back.take n).takeWhile (isDigitIn 16) = [] := fun n =>
    Text.takeWhile_eq_nil fun c hc =>
      isDigitIn_of_isPlainBlank 16 c
        (Literal.blanks_iff.1 hback c (List.mem_of_mem_take (List.mem_of_mem_head? hc)))
  have hdigits : ((t ++ back).take 4).takeWhile (isDigitIn 16) =
      (t.take 4).takeWhile (isDigitIn 16) := by
    rw [List.take_append, List.takeWhile_append, hstop, List.append_nil]
    split
    · next hall => exact (List.takeWhile_prefix _).eq_of_length hall |>.symm
    · rfl
  rw [hex4?, hex4?, hdigits]

theorem escape?_append (hback : Blanks back) (t : Text) : escape? (t ++ back) = escape? t := by
  cases t with
  | nil =>
    cases back with
    | nil => rfl
    | cons b bs =>
      rcases hback.cases List.mem_cons_self with rfl | rfl | rfl | rfl <;>
        rfl
  | cons c u => rw [List.cons_append, escape?, escape?, hex4?_append hback]

theorem stringFrom?_blanks (hback : Blanks back) (skip : Nat) : stringFrom? skip back = none := by
  induction back generalizing skip with
  | nil => cases skip <;> rfl
  | cons b bs ih =>
    have hbs := ih fun c hc => hback c (List.mem_cons_of_mem _ hc)
    cases skip with
    | succ skip => exact hbs skip
    | zero =>
      rcases hback.cases List.mem_cons_self with rfl | rfl | rfl | rfl
      · rw [stringFrom?, hbs 0]
        rfl
      all_goals rfl

theorem stringFrom?_append (hback : Blanks back) (skip : Nat) (t : Text) :
    stringFrom? skip (t ++ back) = (stringFrom? skip t).map (followedBy back) := by
  induction t generalizing skip with
  | nil =>
    rw [List.nil_append, stringFrom?_blanks hback]
    cases skip <;> rfl
  | cons c u ih =>
    cases skip with
    | succ skip => exact ih skip
    | zero =>
      rw [List.cons_append, stringFrom?, stringFrom?, escape?_append hback]
      split
      · rfl
      split
      · split
        · next p n _ => rw [ih, Text.map_followedBy back (p :: ·)]
        · rfl
      split
      · rfl
      · rw [ih, Text.map_followedBy back (Piece.char c :: ·)]

theorem stringFrom?_leavesEnd (skip : Nat) : LeavesEnd (stringFrom? skip) := by
  intro t pieces rest h
  induction t generalizing skip pieces with
  | nil => cases skip <;> simp [stringFrom?] at h
  | cons c u ih =>
    have hend : ∀ {skip pieces}, stringFrom? skip u = some (pieces, rest) → rest <:+ c :: u :=
      fun hread => (ih _ hread).trans (List.suffix_cons c u)
    cases skip with
    | succ skip => exact hend h
    | zero =>
      rw [stringFrom?] at h
      split at h
      · obtain ⟨-, rfl⟩ := Prod.mk.inj (Option.some.inj h)
        exact List.suffix_cons c u
      split at h
      · split at h
        · next p n _ =>
          obtain ⟨pieces', hread, -⟩ := exists_of_map (p :: ·) h
          exact hend hread
        · simp at h
      split at h
      · simp at h
      · obtain ⟨pieces', hread, -⟩ := exists_of_map (Piece.char c :: ·) h
        exact hend hread

/-! ### Values -/

theorem skipAtom?_leavesEnd (h : skipAtom? t = some rest) : rest <:+ t := by
  by_cases hname : ∃ name ∈ names, ∃ u, t = name ++ u
  · obtain ⟨name, hname, u, rfl⟩ := hname
    rw [skipAtom?_name hname] at h
    obtain rfl := Option.some.inj h
    exact List.suffix_append name u
  · rw [skipAtom?_of_no_name fun name h u hu => hname ⟨name, h, u, hu⟩] at h
    obtain ⟨n, hn⟩ := Attempt.read?_of_skipNumber? h
    obtain ⟨u, -, rfl⟩ := Numeral.read?_sound hn
    exact List.suffix_append u rest

variable {value? value₁ value₂ : Text → Option (Tree × Text)} {size : Nat}

theorem pair?_leavesEnd (hvalue : LeavesEnd value?) : LeavesEnd (pair? value?) := by
  intro t entry rest h
  unfold pair? at h
  split at h
  · next u =>
    split at h
    · simp at h
    · next key r hkey =>
      have hr : r <:+ '"' :: u := (stringFrom?_leavesEnd 0 hkey).trans (List.suffix_cons _ u)
      split at h
      · next v hv =>
        have hcolon : ':' :: v <:+ r := hv ▸ Text.skipBlanks_suffix r
        obtain ⟨tree, hread, -⟩ := exists_of_map (key, ·) h
        have hrest := (hvalue hread).trans (Text.skipBlanks_suffix v)
        exact ((hrest.trans (List.suffix_cons _ v)).trans hcolon).trans hr
      · simp at h
  · simp at h

theorem pair?_overlooks (hback : Blanks back) (hvalue : Overlooks back size value₁ value₂) :
    Overlooks back size (pair? value₁) (pair? value₂) := by
  intro t ht
  have hblank := Literal.blanks_iff.1 hback
  obtain ⟨hnil, hnil'⟩ | ⟨c, u, hcons, hcons', hlt⟩ := skipBlanks_behind hblank t
  · rw [hnil, hnil']
    rfl
  rw [hcons, hcons']
  by_cases hquote : c = '"'
  · rw [hquote, pair?, pair?, stringFrom?_append hback]
    cases hkey : stringFrom? 0 u with
    | none => rfl
    | some p =>
      obtain ⟨key, r⟩ := p
      have hr := (stringFrom?_leavesEnd 0 hkey).length_le
      simp only [Option.map_some, followedBy]
      obtain ⟨hnil, hnil'⟩ | ⟨d, v, hd, hd', hv⟩ := skipBlanks_behind hblank r
      · rw [hnil, hnil']
        rfl
      rw [hd, hd']
      by_cases hcolon : d = ':'
      · have hpair := Text.map_followedBy back (key, ·) (value₁ (Text.skipBlanks v))
        rw [← hvalue v (by omega)] at hpair
        rw [hcolon]
        exact hpair
      · simp [hcolon]
  · unfold pair?
    simp [hquote]

theorem value?_leavesEnd (depth : Nat) : LeavesEnd (Json.value? depth) := by
  intro t tree rest h
  induction depth generalizing t tree rest with
  | zero => simp [Json.value?] at h
  | succ depth ih =>
    cases t with
    | nil => simp [Json.value?] at h
    | cons c u =>
      have hskip : style.skip = Text.skipBlanks := rfl
      rw [Json.value?] at h
      dsimp only at h
      split at h
      · obtain ⟨trees, hread, -⟩ := exists_of_map Tree.array h
        exact (Container.items?_leavesEnd hskip ih hread).trans (List.suffix_cons c u)
      split at h
      · obtain ⟨entries, hread, -⟩ := exists_of_map Tree.object h
        exact (Container.items?_leavesEnd hskip (pair?_leavesEnd ih) hread).trans
          (List.suffix_cons c u)
      split at h
      · obtain ⟨pieces, hread, -⟩ := exists_of_map Tree.string h
        exact (stringFrom?_leavesEnd 0 hread).trans (List.suffix_cons c u)
      · obtain ⟨r, hread, heq⟩ := Option.map_eq_some_iff.1 h
        obtain ⟨-, rfl⟩ := Prod.mk.inj heq
        exact skipAtom?_leavesEnd hread

/-- **A value is read as if nothing stood behind it**, however deep the two readers may go beyond the
length of the text. -/
theorem value?_overlooks (hback : Blanks back) {depth₁ depth₂ : Nat} (h₁ : size ≤ depth₁)
    (h₂ : size ≤ depth₂) : Overlooks back size (Json.value? depth₁) (Json.value? depth₂) := by
  intro t ht
  have hblank := Literal.blanks_iff.1 hback
  induction depth₁ generalizing t size depth₂ with
  | zero =>
    obtain rfl := List.length_eq_zero_iff.1 (Nat.le_zero.1 (Nat.le_trans ht h₁))
    obtain ⟨-, hnil⟩ | ⟨c, u, -, -, hlt⟩ := skipBlanks_behind hblank []
    · rw [hnil]
      cases depth₂ <;> rfl
    · exact absurd hlt (Nat.not_lt_zero _)
  | succ depth₁ ih =>
    obtain ⟨hnil, hnil'⟩ | ⟨c, u, hcons, hcons', hlt⟩ := skipBlanks_behind hblank t
    · rw [hnil, hnil']
      cases depth₂ <;> rfl
    obtain ⟨depth₂, rfl⟩ := Nat.exists_eq_add_one_of_ne_zero (n := depth₂) (by omega)
    have hskip : style.skip = Text.skipBlanks := rfl
    -- what stands between brackets is shorter than the text
    have hitem : Overlooks back u.length (Json.value? depth₁) (Json.value? depth₂) :=
      fun t ht => ih (by omega) (by omega) t ht
    have hend : LeavesEnd (Json.value? depth₁) := value?_leavesEnd depth₁
    rw [hcons, hcons', Json.value?, Json.value?]
    dsimp only
    split
    · rw [Container.items?_behind hskip hblank hitem hend (Nat.le_refl _),
        Text.map_followedBy back Tree.array]
    split
    · rw [Container.items?_behind hskip hblank (pair?_overlooks hback hitem) (pair?_leavesEnd hend)
        (Nat.le_refl _), Text.map_followedBy back Tree.object]
    split
    · rw [stringFrom?_append hback, Text.map_followedBy back Tree.string]
    · rw [← List.cons_append, skipAtom?_append hback]
      cases skipAtom? (c :: u) <;> rfl

/-- **The tree of a text does not depend on the blanks around it.** -/
theorem read?_surrounded {front : Text} (hfront : Blanks front) (hback : Blanks back) (t : Text) :
    read? (front ++ t ++ back) = read? t := by
  have hvalue : Json.value? ((front ++ t ++ back).length + 1) (Text.skipBlanks (front ++ t ++ back)) =
      (Json.value? (t.length + 1) (Text.skipBlanks t)).map (followedBy back) := by
    rw [List.append_assoc, Literal.skipBlanks_append hfront]
    refine value?_overlooks hback (Nat.le_succ _) ?_ t (Nat.le_refl _)
    simp only [List.length_append]
    omega
  rw [read?, read?, hvalue]
  cases Json.value? (t.length + 1) (Text.skipBlanks t) with
  | none => rfl
  | some p =>
    obtain ⟨tree, rest⟩ := p
    simp only [Option.map_some, followedBy]
    have hblank := Literal.blanks_iff.1 hback
    obtain ⟨hnil, hnil'⟩ | ⟨c, u, hcons, hcons', -⟩ := skipBlanks_behind hblank rest
    · rw [hnil, hnil']
    · rw [hcons, hcons']
      rfl

end Json

namespace Attempt

/-! ### Records -/

/-- **Blanks around a record do not matter**: the line is decoded to the same rules, or it is refused
for the same reason at the same place. -/
theorem decode_surrounded {front back : Text} (hfront : Blanks front) (hback : Blanks back)
    (line : Text) : decode (front ++ line ++ back) = decode line := by
  have htrim : Text.trim (front ++ line ++ back) = Text.trim line :=
    Text.trimBy_append_of_all (isBlank_of_blanks hfront) (isBlank_of_blanks hback) line
  rw [decode, decode, Json.read?_surrounded hfront hback, htrim]

/-- A record in JSON that is no literal, a literal that is no JSON, and an error with its position. -/
theorem decode_surrounded_refused :
    let front := "\t\r\n ".toList
    let back := " \r\n".toList
    Blanks front ∧ Blanks back ∧
      decode (front ++ "[[\"\\/\"]]".toList ++ back) = .ok ⟨[['/']]⟩ ∧
      decode (front ++ "(['p(x)'],)".toList ++ back) = .ok ⟨["p(x)".toList]⟩ ∧
      decode (front ++ "[['p(x)']] + 1".toList ++ back) = .error (.literal ⟨11, "+ 1".toList⟩) := by
  intro front back
  have hfront : Blanks front := Literal.blanks_iff.2 (List.all_eq_true.1 (by decide))
  have hback : Blanks back := Literal.blanks_iff.2 (List.all_eq_true.1 (by decide))
  refine ⟨hfront, hback, ?_, ?_, ?_⟩
  · rw [decode_surrounded hfront hback]
    rfl
  · rw [decode_surrounded hfront hback]
    rfl
  · rw [decode_surrounded hfront hback]
    rfl

end Attempt

end MinedRules
