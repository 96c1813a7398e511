import MinedRules.Proofs.Literal.Grammar
import MinedRules.Proofs.Text.Digits
import MinedRules.Proofs.Text.Readers
import MinedRules.Proofs.Text.Trimming

/-!
# Reading quoted strings

`Quotation.read?` takes the characters up to the closing quote and gives the string that these spell
(`read?_sound`, `read?_complete`).  An escape ends where its last digit may stand: after the digits
that its letter asks for or, without a letter, after the longest run of at most three octal digits
(`codePoint?_eq_some_iff`).
-/

namespace MinedRules

namespace Quotation

open Literal (Escape Body letters hexLengths)

/-! ### Runs of digits -/

/-- A run of at most `most` digits, which another digit follows only if it has that many. -/
structure IsRun (base most : Nat) (digits t : Text) : Prop where
  length : digits.length ≤ most
  all : ∀ c ∈ digits, isDigitIn base c = true
  stop : digits.length < most → ∀ c ∈ t.head?, isDigitIn base c = false

theorem IsRun.takeWhile {base most : Nat} {digits t : Text} (h : IsRun base most digits t) :
    ((digits ++ t).take most).takeWhile (isDigitIn base) = digits := by
  obtain ⟨k, rfl⟩ := Nat.exists_eq_add_of_le h.length
  rw [List.take_length_add_append, Text.takeWhile_append_of_stop h.all]
  intro c hc
  cases k with
  | zero => simp at hc
  | succ k =>
    refine h.stop (by omega) c ?_
    rwa [List.head?_take, if_neg (by omega)] at hc

theorem exists_run (base most : Nat) (t : Text) : ∃ rest,
    t = (t.take most).takeWhile (isDigitIn base) ++ rest ∧
      IsRun base most ((t.take most).takeWhile (isDigitIn base)) rest := by
  induction most generalizing t with
  | zero => exact ⟨t, by simp, by simp, by simp, by simp⟩
  | succ most ih =>
    cases t with
    | nil => exact ⟨[], by simp, by simp, by simp, by simp⟩
    | cons c t =>
      rw [List.take_succ_cons]
      by_cases hc : isDigitIn base c = true
      · obtain ⟨rest, ht, hrun⟩ := ih t
        rw [List.takeWhile_cons_of_pos hc]
        refine ⟨rest, by rw [List.cons_append, ← ht], ?_, ?_, ?_⟩
        · rw [List.length_cons]
          exact Nat.succ_le_succ hrun.length
        · exact List.forall_mem_cons.2 ⟨hc, hrun.all⟩
        · rw [List.length_cons]
          exact fun hlt => hrun.stop (Nat.lt_of_succ_lt_succ hlt)
      · rw [List.takeWhile_cons_of_neg hc]
        refine ⟨c :: t, rfl, by simp, by simp, fun _ d hd => ?_⟩
        rw [List.head?_cons, Option.mem_some_iff] at hd
        rw [← hd]
        exact Bool.eq_false_iff.2 hc

theorem codePoint?_eq_some_iff {base least most n : Nat} {t : Text} {c : Char} :
    codePoint? base least most t = some (c, n) ↔ ∃ digits rest, t = digits ++ rest ∧
      IsRun base most digits rest ∧ least ≤ digits.length ∧
      (Text.valueIn base digits).isValidChar ∧ c = Char.ofNat (Text.valueIn base digits) ∧
      n = digits.length := by
  rw [codePoint?]
  constructor
  · intro h
    obtain ⟨rest, ht, hrun⟩ := exists_run base most t
    split at h
    · next hvalid =>
      obtain ⟨rfl, rfl⟩ := Prod.mk.inj (Option.some.inj h)
      exact ⟨_, rest, ht, hrun, hvalid.1, hvalid.2, rfl, rfl⟩
    · simp at h
  · rintro ⟨digits, rest, rfl, hrun, hleast, hvalid, rfl, rfl⟩
    simp only [hrun.takeWhile]
    rw [if_pos ⟨hleast, hvalid⟩]

/-! ### Escapes -/

theorem forall_not_isDigit_iff {next : Option Char} :
    (∀ d ∈ next, ¬ IsDigit 8 d) ↔ ∀ d ∈ next, isDigitIn 8 d = false := by
  simp only [isDigit_iff (show 8 ≤ 16 by decide), Bool.not_eq_true]

/-- Three octal digits stay below the surrogates. -/
theorem isValidChar_of_octal {digits : Text} (h : digits.length ≤ 3) :
    (Text.valueIn 8 digits).isValidChar := by
  have hlt : Text.valueIn 8 digits < Nat.pow 8 digits.length := Text.valueIn_lt (by decide) digits
  have hpow : Nat.pow 8 digits.length ≤ Nat.pow 8 3 := Nat.pow_le_pow_right (by decide) h
  exact .inl (Nat.lt_of_lt_of_le hlt (Nat.le_trans hpow (by decide)))

theorem escape?_sound {t : Text} {c : Char} {n : Nat} (h : escape? t = some (c, n)) :
    ∃ e rest, t = e ++ rest ∧ n = e.length ∧ Escape rest.head? e c := by
  cases t with
  | nil => simp [escape?] at h
  | cons d t =>
    have hletter : ∀ {x : Char}, (d, x) ∈ letters → some (x, 1) = some (c, n) →
        ∃ e rest, d :: t = e ++ rest ∧ n = e.length ∧ Escape rest.head? e c := by
      intro x hx heq
      obtain ⟨rfl, rfl⟩ := Prod.mk.inj (Option.some.inj heq)
      exact ⟨[d], t, rfl, rfl, .letter hx⟩
    have hhex : ∀ {k : Nat}, (d, k) ∈ hexLengths →
        (codePoint? 16 k k t).map (fun p => (p.1, p.2 + 1)) = some (c, n) →
        ∃ e rest, d :: t = e ++ rest ∧ n = e.length ∧ Escape rest.head? e c := by
      intro k hk heq
      obtain ⟨⟨x, m⟩, hpoint, heq⟩ := Option.map_eq_some_iff.1 heq
      obtain ⟨rfl, rfl⟩ := Prod.mk.inj heq
      obtain ⟨digits, rest, rfl, hrun, hleast, hvalid, rfl, rfl⟩ := codePoint?_eq_some_iff.1 hpoint
      have hspells := (Text.spells_iff (by decide)).2 ⟨hrun.all, rfl⟩
      exact ⟨d :: digits, rest, rfl, rfl,
        .hex hk (Nat.le_antisymm hrun.length hleast) hspells hvalid⟩
    rw [escape?] at h
    split at h
    · next hd => exact hletter (by simp [hd, letters]) h
    split at h
    · next hd => exact hletter (by simp [hd, letters]) h
    split at h
    · next hd => exact hletter (by simp [hd, letters]) h
    split at h
    · next hd => exact hletter (by rcases hd with rfl | rfl | rfl <;> simp [letters]) h
    split at h
    · next hd => exact hhex (by simp [hd, hexLengths]) h
    split at h
    · next hd => exact hhex (by simp [hd, hexLengths]) h
    split at h
    · next hd => exact hhex (by simp [hd, hexLengths]) h
    · obtain ⟨digits, rest, ht, hrun, hleast, hvalid, rfl, rfl⟩ := codePoint?_eq_some_iff.1 h
      have hspells := (Text.spells_iff (by decide)).2 ⟨hrun.all, rfl⟩
      refine ⟨digits, rest, ht, rfl, .octal ?_ hrun.length hspells fun hlt => ?_⟩
      · exact List.ne_nil_of_length_pos hleast
      · exact forall_not_isDigit_iff.2 (hrun.stop hlt)

theorem escape?_complete {e rest : Text} {c : Char} (h : Escape rest.head? e c) :
    escape? (e ++ rest) = some (c, e.length) := by
  cases h with
  | letter hc =>
    simp only [letters, List.mem_cons, Prod.mk.injEq, List.not_mem_nil, or_false] at hc
    rcases hc with ⟨rfl, rfl⟩ | ⟨rfl, rfl⟩ | ⟨rfl, rfl⟩ | ⟨rfl, rfl⟩ | ⟨rfl, rfl⟩ | ⟨rfl, rfl⟩ <;> rfl
  | @hex x n digits point hx hn hspells hvalid =>
    obtain ⟨hall, rfl⟩ := (Text.spells_iff (by decide)).1 hspells
    have hpoint : codePoint? 16 n n (digits ++ rest) =
        some (Char.ofNat (Text.valueIn 16 digits), digits.length) :=
      codePoint?_eq_some_iff.2 ⟨digits, rest, rfl, ⟨by omega, hall, fun hlt => by omega⟩,
        by omega, hvalid, rfl, rfl⟩
    simp only [hexLengths, List.mem_cons, Prod.mk.injEq, List.not_mem_nil, or_false] at hx
    rw [List.cons_append, escape?]
    rcases hx with ⟨rfl, rfl⟩ | ⟨rfl, rfl⟩ | ⟨rfl, rfl⟩ <;> simp [hpoint]
  | octal hne hlength hspells hstop =>
    obtain ⟨hall, rfl⟩ := (Text.spells_iff (by decide)).1 hspells
    have hrun : IsRun 8 3 e rest :=
      ⟨hlength, hall, fun hlt => forall_not_isDigit_iff.1 (hstop hlt)⟩
    have hpoint : codePoint? 8 1 3 (e ++ rest) =
        some (Char.ofNat (Text.valueIn 8 e), e.length) :=
      codePoint?_eq_some_iff.2 ⟨e, rest, rfl, hrun,
        List.length_pos_iff.2 hne, isValidChar_of_octal hlength, rfl, rfl⟩
    obtain ⟨d, digits, rfl⟩ := List.exists_cons_of_ne_nil hne
    -- the first digit is none of the letters of escapes
    have hd : ∀ {x : Char}, isDigitIn 8 x = false → d ≠ x :=
      fun hx => Text.ne_of_class (hall d List.mem_cons_self) hx
    have hletters : ¬ (d = '\\' ∨ d = '\'' ∨ d = '"') := by
      rintro (rfl | rfl | rfl)
      · exact hd (x := '\\') (by decide) rfl
      · exact hd (x := '\'') (by decide) rfl
      · exact hd (x := '"') (by decide) rfl
    rw [List.cons_append] at hpoint
    rw [List.cons_append, escape?, if_neg (hd (by decide)), if_neg (hd (by decide)),
      if_neg (hd (by decide)), if_neg hletters, if_neg (hd (by decide)), if_neg (hd (by decide)),
      if_neg (hd (by decide)), hpoint]

/-! ### Strings -/

variable {quote : Char}

theorem readFrom?_drop (n : Nat) (t : Text) :
    readFrom? quote n t = readFrom? quote 0 (t.drop n) := by
  induction t generalizing n with
  | nil => cases n <;> rfl
  | cons c t ih =>
    cases n with
    | zero => rfl
    | succ n => rw [readFrom?, ih, List.drop_succ_cons]

/-- What comes after an escape matters only if it is an octal digit. -/
theorem escape_of_next {next next' : Option Char} {e : Text} {c : Char}
    (hnext : ∀ d ∈ next', d ∈ next ∨ isDigitIn 8 d = false) (h : Escape next e c) :
    Escape next' e c := by
  cases h with
  | letter hc => exact .letter hc
  | hex hx hn hspells hvalid => exact .hex hx hn hspells hvalid
  | octal hne hlength hspells hstop =>
    refine .octal hne hlength hspells fun hlt => ?_
    refine forall_not_isDigit_iff.2 fun d hd => ?_
    rcases hnext d hd with hd | hd
    · exact forall_not_isDigit_iff.1 (hstop hlt) d hd
    · exact hd

theorem escape_head? {e u t : Text} {c : Char} (h : Escape (u ++ t).head? e c) :
    Escape u.head? e c := by
  refine escape_of_next (fun d hd => .inl ?_) h
  rw [List.head?_append_of_ne_nil _ (List.ne_nil_of_mem (List.mem_of_head? hd))]
  exact hd

theorem escape_append {e u t : Text} {c : Char} (ht : ∀ d ∈ t.head?, isDigitIn 8 d = false)
    (h : Escape u.head? e c) : Escape (u ++ t).head? e c := by
  refine escape_of_next (fun d hd => ?_) h
  cases u with
  | nil => exact .inr (ht d hd)
  | cons => exact .inl hd

theorem readFrom?_body {u s t : Text} (h : Body quote u s) (hquote : quote = '\'' ∨ quote = '"')
    (ht : ∀ d ∈ t.head?, isDigitIn 8 d = false) : readFrom? quote 0 (u ++ t) =
      (readFrom? quote 0 t).map fun p => (s ++ p.1, p.2) := by
  have hslash : '\\' ≠ quote := by rcases hquote with rfl | rfl <;> decide
  induction h with
  | nil => simp
  | raw hc hc' _ ih =>
    rw [List.cons_append, readFrom?, if_neg hc, if_neg hc', ih, Option.map_map]
    rfl
  | escape he _ ih =>
    rw [List.cons_append, List.append_assoc, readFrom?, if_neg hslash, if_pos rfl,
      escape?_complete (escape_append ht he)]
    dsimp only
    rw [readFrom?_drop, List.drop_left, ih, Option.map_map]
    rfl

theorem read?_sound {t s rest : Text} (h : read? quote t = some (s, rest)) :
    ∃ u, Body quote u s ∧ t = u ++ quote :: rest := by
  rw [read?] at h
  -- an escape takes several characters at once
  induction hn : t.length using Nat.strongRecOn generalizing t s with
  | ind n ih =>
    subst hn
    cases t with
    | nil => simp [readFrom?] at h
    | cons c t =>
      rw [readFrom?] at h
      split at h
      · next hc =>
        obtain ⟨rfl, rfl⟩ := Prod.mk.inj (Option.some.inj h)
        exact ⟨[], .nil, by rw [hc, List.nil_append]⟩
      · next hquote =>
        split at h
        · next hc =>
          split at h
          · next d k hescape =>
            obtain ⟨e, rest', rfl, rfl, he⟩ := escape?_sound hescape
            rw [readFrom?_drop, List.drop_left] at h
            obtain ⟨s', hread, rfl⟩ := exists_of_map (d :: ·) h
            have hshorter : rest'.length < (c :: (e ++ rest')).length := by
              simp only [List.length_cons, List.length_append]
              omega
            obtain ⟨u, hu, rfl⟩ := ih _ hshorter hread rfl
            exact ⟨_, .escape (escape_head? he) hu, by simp [hc]⟩
          · simp at h
        · next hc =>
          obtain ⟨s', hread, rfl⟩ := exists_of_map (c :: ·) h
          obtain ⟨u, hu, rfl⟩ := ih _ (by simp) hread rfl
          exact ⟨_, .raw hquote hc hu, rfl⟩

theorem read?_complete {u s : Text} (h : Body quote u s) (hquote : quote = '\'' ∨ quote = '"')
    (rest : Text) : read? quote (u ++ quote :: rest) = some (s, rest) := by
  have hdigit : ∀ d ∈ (quote :: rest).head?, isDigitIn 8 d = false := by
    rcases hquote with rfl | rfl <;> simp <;> decide
  rw [read?, readFrom?_body h hquote hdigit, readFrom?, if_pos rfl]
  simp

end Quotation

end MinedRules
