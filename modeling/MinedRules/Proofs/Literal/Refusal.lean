import MinedRules.Proofs.Literal.Decoding

/-!
# Where a literal is refused

A text that is no literal is refused at a place where a character begins: where its value should
start, or where something follows a whole literal (`Literal.Error.PointsInto`).  It is never a place
inside of a value, however deep the reader went before it gave up.

* `Literal.exists_of_read_eq_error` : what stands before the place.
* `Literal.read_append_of_closed` : what follows a container or a string is refused where it starts.
-/

namespace MinedRules

namespace Literal

variable {t u a b : Text} {v : Value} {e : Error} {c : Char}

/-! ### Errors -/

theorem byteLength_blanks (ha : Blanks a) : Text.byteLength a = a.length := by
  induction a with
  | nil => rfl
  | cons c a ih =>
    have hc : c.utf8Size = 1 := by
      rcases ha.cases List.mem_cons_self with rfl | rfl | rfl | rfl <;> rfl
    rw [Text.byteLength_cons, ih fun d hd => ha d (List.mem_cons_of_mem _ hd), hc, List.length_cons,
      Nat.add_comm]

theorem errorAt_append (a rest : Text) : errorAt (a ++ rest) rest = ⟨Text.byteLength a, rest⟩ := by
  rw [errorAt, Text.byteLength_append, Nat.add_sub_cancel]

theorem Error.found_eq_end_iff (e : Error) :
    e.found = "unexpected end of input" ↔ e.rest = [] := by
  rw [Error.found]
  split
  · next hnil => simpa using hnil
  · next hnil =>
    refine ⟨fun hfound => ?_, fun h => absurd h (by simpa using hnil)⟩
    have hletter := congrArg (fun s => s.toList[11]?) hfound
    rw [String.toList_append, List.getElem?_append_left (by decide)] at hletter
    exact absurd hletter (by decide)

/-! ### Places -/

/-- **What stands before the place of an error**: blanks, or a literal that something follows. -/
theorem exists_of_read_eq_error (h : read t = .error e) : ∃ front, t = front ++ e.rest ∧
    e.position = Text.byteLength front ∧ (∀ c ∈ e.rest.head?, isPlainBlank c = false) ∧
    (Blanks front ∨ e.rest ≠ [] ∧ ∃ v, read front = .ok v) := by
  obtain ⟨a, ha, ht⟩ := exists_blanks t
  rw [read] at h
  split at h
  · -- no value at the start
    have he : e = ⟨Text.byteLength a, Text.skipBlanks t⟩ := by
      rw [← errorAt_append, ← ht]
      exact (Except.error.inj h).symm
    rw [he]
    exact ⟨a, ht, rfl, Text.head?_dropWhile _ _, .inl ha⟩
  · next v rest hvalue =>
    obtain ⟨u, hu, hstart⟩ := value?_sound hvalue
    obtain ⟨b, hb, hrest⟩ := exists_blanks rest
    have hfront : t = a ++ u ++ b ++ Text.skipBlanks rest := by
      rw [List.append_assoc, ← hrest, List.append_assoc, ← hstart, ← ht]
    split at h
    · cases h
    · next hne =>
      have he : e = ⟨Text.byteLength (a ++ u ++ b), Text.skipBlanks rest⟩ := by
        rw [← errorAt_append, ← hfront]
        exact (Except.error.inj h).symm
      rw [he]
      exact ⟨_, hfront, rfl, Text.head?_dropWhile _ _, .inr ⟨hne, v, read_complete ha hu hb⟩⟩

/-- An error that points into a text.  A character begins at its position, or the text ends there,
which is what the wording tells.  Nothing but blanks stand before it, or all before it is a
literal. -/
structure Error.PointsInto (e : Error) (t : Text) : Prop where
  cut : ∃ front, Text.cutAtByte? e.position t = some (front, e.rest)
  le : e.position ≤ Text.byteLength t
  found_iff : e.found = "unexpected end of input" ↔ e.position = Text.byteLength t
  place : e.position = (t.takeWhile isPlainBlank).length ∨ ∃ u c w v, t = u ++ c :: w ∧
    isPlainBlank c = false ∧ read u = .ok v ∧ e.position = Text.byteLength u

theorem pointsInto_of_read (h : read t = .error e) : e.PointsInto t := by
  obtain ⟨front, ht, hposition, hstart, hfront⟩ := exists_of_read_eq_error h
  refine ⟨⟨front, ?_⟩, ?_, ?_, ?_⟩
  · rw [hposition, ht]
    exact Text.cutAtByte?_byteLength _ _
  · rw [hposition, ht, Text.byteLength_append]
    exact Nat.le_add_right _ _
  · rw [Error.found_eq_end_iff, hposition, ht, Text.byteLength_append, ← Text.byteLength_eq_zero_iff]
    omega
  · rcases hfront with hblanks | ⟨hne, v, hread⟩
    · left
      rw [hposition, byteLength_blanks hblanks, ht,
        Text.takeWhile_append_of_stop (blanks_iff.1 hblanks) hstart]
    · right
      obtain ⟨c, w, hcw⟩ := List.exists_cons_of_ne_nil hne
      rw [hcw] at hstart ht
      exact ⟨front, c, w, v, ht, hstart c rfl, hread, hposition⟩

/-! ### Text behind a literal -/

theorem core_end (h : Core u v) : ∃ w c, u = w ++ [c] ∧ isPlainBlank c = false := by
  cases h with
  | list => exact ⟨'[' :: _, _, rfl, by decide⟩
  | tuple => exact ⟨'(' :: _, _, rfl, by decide⟩
  | dict => exact ⟨'\x7b' :: _, _, rfl, by decide⟩
  | @string quote _ _ hquote =>
    exact ⟨quote :: _, _, rfl, by rcases hquote with rfl | rfl <;> decide⟩
  | number hspelled =>
    obtain ⟨d, t, rfl, -⟩ := spelled_start hspelled
    obtain ⟨w, c, hwc⟩ := (List.eq_nil_or_concat' (d :: t)).resolve_left (List.cons_ne_nil _ _)
    refine ⟨w, c, hwc, ?_⟩
    rw [← Bool.not_eq_true]
    intro hblank
    have hmem := mem_spelled hspelled (c := c) (by simp [hwc])
    rcases isPlainBlank_cases hblank with rfl | rfl | rfl | rfl <;> exact absurd hmem (by decide)
  | true => exact ⟨['T', 'r', 'u'], 'e', rfl, by decide⟩
  | false => exact ⟨['F', 'a', 'l', 's'], 'e', rfl, by decide⟩
  | none => exact ⟨['N', 'o', 'n'], 'e', rfl, by decide⟩

/-- The last character of a literal that is no blank is the one that its core ends with. -/
theorem endsClosed_core (hu : Core u v) (hb : Blanks b)
    (hend : EndsClosed (Text.dropWhileEnd isPlainBlank (a ++ u ++ b))) : EndsClosed u := by
  obtain ⟨w, c, rfl, hc⟩ := core_end hu
  rw [Text.dropWhileEnd_append_of_all (blanks_iff.1 hb), ← List.append_assoc,
    Text.dropWhileEnd_eq_self hc] at hend
  obtain ⟨d, hd, hclosing⟩ := hend
  rw [List.getLast?_concat] at hd
  exact ⟨d, by rwa [List.getLast?_concat], hclosing⟩

/-- **What follows a container or a string is refused where it starts**, whatever it is. -/
theorem read_append_of_closed (h : read u = .ok v)
    (hend : EndsClosed (Text.dropWhileEnd isPlainBlank u)) (hc : isPlainBlank c = false) (w : Text) :
    read (u ++ c :: w) = .error ⟨Text.byteLength u, c :: w⟩ := by
  obtain ⟨a, x, b, rfl, ha, hx, hb⟩ := padded_iff.1 (read_sound h)
  have hdepth : x.length ≤ (a ++ x ++ b ++ c :: w).length + 1 := by
    simp only [List.length_append]
    omega
  have hvalue := value?_closed hx (endsClosed_core hx hb hend) hdepth (b ++ c :: w)
  have hskip : Text.skipBlanks (b ++ c :: w) = c :: w := by
    rw [skipBlanks_append hb, skipBlanks_eq_self]
    rintro d ⟨⟩
    exact hc
  rw [read, ← errorAt_append]
  rw [List.append_assoc (a ++ x)] at hvalue ⊢
  simp only [skipBlanks_core ha hx, hvalue, hskip]

/-- **An error points to the start of the value or to the end of a literal**, and to the end of a
container or a string if this is followed by anything but blanks. -/
theorem read_refuses : (∀ t e, read t = .error e → e.PointsInto t) ∧
    ∀ u v c w, read u = .ok v → EndsClosed (Text.dropWhileEnd isPlainBlank u) →
      isPlainBlank c = false → read (u ++ c :: w) = .error ⟨Text.byteLength u, c :: w⟩ :=
  ⟨fun _ _ => pointsInto_of_read, fun _ _ _ w h hend hc => read_append_of_closed h hend hc w⟩

/-- A digit right behind a bracket, which would go on with a number. -/
theorem read_refuses_digit :
    let u := " ['é', 1]".toList
    let e : Error := ⟨10, ['5']⟩
    read (u ++ ['5']) = .error e ∧ e.PointsInto (u ++ ['5']) := by
  intro u e
  have h : read u = .ok (.array [.string ['é'], .int 1]) := by rfl
  have herror : read (u ++ ['5']) = .error e :=
    read_refuses.2 u _ '5' [] h ⟨']', by decide, by decide⟩ (by decide)
  exact ⟨herror, read_refuses.1 _ _ herror⟩

end Literal

end MinedRules
