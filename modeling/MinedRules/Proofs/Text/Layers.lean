import MinedRules.Proofs.Text.Trimming
import Mathlib.Data.List.Infix

/-!
# Trimming by one class after the other

A text can be trimmed by several classes of characters in turn (`trimEach`).  Each class is trimmed
once, so what is removed from an end is one run of each class, in the order of the classes (`Layered`),
and a character of a class that comes too late stays.

* `Layered.sublist` : a text made of runs stays one when characters are left out.
* `layered_iff` : whether a text is made of runs can be computed.
* `exists_trimEach` : what is trimmed from both ends is made of runs.
* `trimEach_append` : around a core the two ends are trimmed independently of each other.
* `trimEach_of_layered` : what is made of runs is trimmed completely.
-/

namespace MinedRules

namespace Text

/-- The text trimmed by each of the classes, in this order. -/
def trimEach (classes : List (Char → Bool)) (t : Text) : Text :=
  classes.foldl (fun t p => trimBy p t) t

/-- The text without a run of each of the classes at its start, in this order. -/
def dropEach : List (Char → Bool) → Text → Text
  | [], t => t
  | p :: classes, t => dropEach classes (t.dropWhile p)

/-- The text is made of runs, one of each of the classes and in this order.  A run may be empty. -/
inductive Layered : List (Char → Bool) → Text → Prop
  | nil : Layered [] []
  | cons {p : Char → Bool} {classes : List (Char → Bool)} {run rest : Text} :
      (∀ c ∈ run, p c = true) → Layered classes rest → Layered (p :: classes) (run ++ rest)

variable {p : Char → Bool} {classes : List (Char → Bool)} {t front core back : Text}

/-! ### Trimming by one class -/

theorem trimBy_sublist (p : Char → Bool) (t : Text) : (trimBy p t).Sublist t := by
  obtain ⟨s, -, hs⟩ := exists_dropWhileEnd p (t.dropWhile p)
  have hprefix : trimBy p t <+: t.dropWhile p := ⟨s, hs.symm⟩
  exact hprefix.sublist.trans (List.dropWhile_sublist p)

theorem exists_trimBy (p : Char → Bool) (t : Text) :
    ∃ a b, t = a ++ trimBy p t ++ b ∧ (∀ c ∈ a, p c = true) ∧ ∀ c ∈ b, p c = true := by
  obtain ⟨b, hb, ht⟩ := exists_dropWhileEnd p (t.dropWhile p)
  refine ⟨t.takeWhile p, b, ?_, fun c hc => List.mem_takeWhile_imp hc, hb⟩
  rw [List.append_assoc, trimBy, ← ht, List.takeWhile_append_dropWhile]

theorem trimBy_append_of_all (hfront : ∀ c ∈ front, p c = true) (hback : ∀ c ∈ back, p c = true)
    (t : Text) : trimBy p (front ++ t ++ back) = trimBy p t := by
  rw [List.append_assoc, trimBy, List.dropWhile_append_of_pos hfront, List.dropWhile_append]
  split
  · next hall =>
    -- with nothing else in the text all of it is trimmed
    rw [trimBy, List.isEmpty_iff.1 hall, ← List.append_nil back,
      List.dropWhile_append_of_pos hback]
    rfl
  · rw [dropWhileEnd_append_of_all hback, trimBy]

theorem head?_trimBy (p : Char → Bool) (t : Text) : ∀ c ∈ (trimBy p t).head?, p c = false := by
  obtain ⟨s, -, hs⟩ := exists_dropWhileEnd p (t.dropWhile p)
  intro c hc
  have hne : dropWhileEnd p (t.dropWhile p) ≠ [] := List.ne_nil_of_mem (List.mem_of_head? hc)
  refine head?_dropWhile p t c ?_
  rwa [hs, List.head?_append_of_ne_nil _ hne]

theorem getLast?_trimBy (p : Char → Bool) (t : Text) :
    ∀ c ∈ (trimBy p t).getLast?, p c = false := by
  intro c hc
  rw [trimBy, dropWhileEnd, List.getLast?_reverse] at hc
  exact head?_dropWhile p _ c hc

theorem dropWhile_append_of_head? (h : ∀ c ∈ core.head?, p c = false) (t : Text) :
    (t ++ core).dropWhile p = t.dropWhile p ++ core := by
  rw [List.dropWhile_append]
  split
  · next hall => rw [List.isEmpty_iff.1 hall, dropWhile_eq_self h, List.nil_append]
  · rfl

theorem dropWhileEnd_append_of_getLast? (h : ∀ c ∈ core.getLast?, p c = false) (t : Text) :
    dropWhileEnd p (core ++ t) = core ++ dropWhileEnd p t := by
  have hhead : ∀ c ∈ core.reverse.head?, p c = false := by rwa [List.head?_reverse]
  rw [dropWhileEnd, List.reverse_append,
    dropWhile_append_of_head? hhead, List.reverse_append,
    List.reverse_reverse, dropWhileEnd]

theorem trimBy_append (hne : core ≠ []) (hhead : ∀ c ∈ core.head?, p c = false)
    (hlast : ∀ c ∈ core.getLast?, p c = false) (front back : Text) :
    trimBy p (front ++ core ++ back) = front.dropWhile p ++ core ++ dropWhileEnd p back := by
  have hhead' : ∀ c ∈ (core ++ back).head?, p c = false := by
    rwa [List.head?_append_of_ne_nil _ hne]
  have hlast' : ∀ c ∈ (front.dropWhile p ++ core).getLast?, p c = false := by
    rwa [List.getLast?_append_of_ne_nil _ hne]
  rw [trimBy, List.append_assoc, dropWhile_append_of_head? hhead',
    ← List.append_assoc, dropWhileEnd_append_of_getLast? hlast']

theorem trimBy_concat_of_pos {c : Char} (h : p c = true) (t : Text) :
    trimBy p (t ++ [c]) = trimBy p t := by
  have hnil : ∀ d ∈ ([] : Text), p d = true := by simp
  have hback : ∀ d ∈ [c], p d = true := by simpa using h
  exact trimBy_append_of_all hnil hback t

theorem trimBy_concat_of_neg {c : Char} (h : p c = false) (t : Text) :
    trimBy p (t ++ [c]) = t.dropWhile p ++ [c] := by
  rw [trimBy, dropWhile_append_singleton h, dropWhileEnd_eq_self h]

theorem ends_of_trimBy_eq (h : trimBy p t = t) :
    (∀ c ∈ t.head?, p c = false) ∧ ∀ c ∈ t.getLast?, p c = false :=
  h ▸ ⟨head?_trimBy p t, getLast?_trimBy p t⟩

/-! ### Runs of several classes -/

theorem trimEach_nil (t : Text) : trimEach [] t = t := rfl

theorem trimEach_cons (p : Char → Bool) (classes : List (Char → Bool)) (t : Text) :
    trimEach (p :: classes) t = trimEach classes (trimBy p t) := rfl

theorem trimEach_sublist (classes : List (Char → Bool)) (t : Text) :
    (trimEach classes t).Sublist t := by
  induction classes generalizing t with
  | nil => exact List.Sublist.refl t
  | cons p classes ih => exact (ih _).trans (trimBy_sublist p t)

theorem ends_of_trimEach_eq (h : trimEach classes t = t) :
    ∀ p ∈ classes, (∀ c ∈ t.head?, p c = false) ∧ ∀ c ∈ t.getLast?, p c = false := by
  induction classes with
  | nil => simp
  | cons p classes ih =>
    rw [trimEach_cons] at h
    -- no step adds characters, so each of them keeps the text
    have hsub := trimEach_sublist classes (trimBy p t)
    rw [h] at hsub
    have hstep : trimBy p t = t := (trimBy_sublist p t).antisymm hsub
    rw [hstep] at h
    exact List.forall_mem_cons.2 ⟨ends_of_trimBy_eq hstep, ih h⟩

theorem Layered.sublist {s : Text} (h : Layered classes t) (hs : s.Sublist t) :
    Layered classes s := by
  induction h generalizing s with
  | nil => exact List.sublist_nil.1 hs ▸ .nil
  | cons hrun _ ih =>
    obtain ⟨s1, s2, rfl, hs1, hs2⟩ := List.sublist_append_iff.1 hs
    exact .cons (fun c hc => hrun c (hs1.subset hc)) (ih hs2)

theorem Layered.append {classes' : List (Char → Bool)} {s : Text} (h : Layered classes t)
    (hs : Layered classes' s) : Layered (classes ++ classes') (t ++ s) := by
  induction h with
  | nil => exact hs
  | cons hrun _ ih =>
    rw [List.append_assoc]
    exact .cons hrun ih

/-- Read from the other end, the runs come in the opposite order. -/
theorem Layered.reverse (h : Layered classes t) : Layered classes.reverse t.reverse := by
  induction h with
  | nil => exact .nil
  | @cons p classes run rest hrun _ ih =>
    have hlast : Layered [p] (run.reverse ++ []) := .cons (by simpa using hrun) .nil
    rw [List.append_nil] at hlast
    rw [List.reverse_cons, List.reverse_append]
    exact ih.append hlast

theorem layered_cons_iff : Layered (p :: classes) t ↔
    ∃ run rest, t = run ++ rest ∧ (∀ c ∈ run, p c = true) ∧ Layered classes rest := by
  constructor
  · rintro ⟨⟩
    exact ⟨_, _, rfl, ‹_›, ‹_›⟩
  · rintro ⟨run, rest, rfl, hrun, hrest⟩
    exact .cons hrun hrest

theorem layered_iff : Layered classes t ↔ dropEach classes t = [] := by
  induction classes generalizing t with
  | nil =>
    constructor
    · rintro ⟨⟩
      rfl
    · rintro rfl
      exact .nil
  | cons p classes ih =>
    rw [dropEach, ← ih]
    constructor
    · intro h
      obtain ⟨run, rest, rfl, hrun, hrest⟩ := layered_cons_iff.1 h
      rw [List.dropWhile_append_of_pos hrun]
      exact hrest.sublist (List.dropWhile_sublist p)
    · intro h
      rw [← List.takeWhile_append_dropWhile (p := p) (l := t)]
      exact .cons (fun c hc => List.mem_takeWhile_imp hc) h

instance (classes : List (Char → Bool)) (t : Text) : Decidable (Layered classes t) :=
  decidable_of_iff _ layered_iff.symm

theorem dropEach_nil (classes : List (Char → Bool)) : dropEach classes [] = [] := by
  induction classes with
  | nil => rfl
  | cons p classes ih => exact ih

theorem dropEach_sublist (classes : List (Char → Bool)) (t : Text) :
    (dropEach classes t).Sublist t := by
  induction classes generalizing t with
  | nil => exact List.Sublist.refl t
  | cons p classes ih => exact (ih _).trans (List.dropWhile_sublist p)

theorem dropEach_map (f : Char → Char) (classes : List (Char → Bool)) (t : Text) :
    dropEach classes (t.map f) = (dropEach (classes.map (· ∘ f)) t).map f := by
  induction classes generalizing t with
  | nil => rfl
  | cons p classes ih => rw [dropEach, List.dropWhile_map, ih, List.map_cons, dropEach]

theorem layered_map_iff {f : Char → Char} :
    Layered classes (t.map f) ↔ Layered (classes.map (· ∘ f)) t := by
  rw [layered_iff, layered_iff, dropEach_map, List.map_eq_nil_iff]

theorem filter_trimEach {q : Char → Bool} (h : ∀ p ∈ classes, ∀ c, p c = true → q c = false)
    (t : Text) : (trimEach classes t).filter q = t.filter q := by
  induction classes generalizing t with
  | nil => rfl
  | cons p classes ih =>
    obtain ⟨hp, hclasses⟩ := List.forall_mem_cons.1 h
    rw [trimEach_cons, ih hclasses, filter_trimBy hp]

theorem exists_trimEach (classes : List (Char → Bool)) (t : Text) :
    ∃ front back, t = front ++ trimEach classes t ++ back ∧ Layered classes front ∧
      Layered classes back.reverse := by
  induction classes generalizing t with
  | nil => exact ⟨[], [], by simp [trimEach], .nil, .nil⟩
  | cons p classes ih =>
    obtain ⟨a, b, ht, ha, hb⟩ := exists_trimBy p t
    obtain ⟨front, back, htrim, hfront, hback⟩ := ih (trimBy p t)
    refine ⟨a ++ front, back ++ b, ?_, .cons ha hfront, ?_⟩
    · calc t = a ++ trimBy p t ++ b := ht
        _ = a ++ (front ++ trimEach classes (trimBy p t) ++ back) ++ b := by rw [← htrim]
        _ = a ++ front ++ trimEach (p :: classes) t ++ (back ++ b) := by
          simp only [trimEach_cons, List.append_assoc]
    · rw [List.reverse_append]
      exact .cons (by simpa using hb) hback

/-- Around a core that keeps its ends the two sides are trimmed independently of each other. -/
theorem trimEach_append (hne : core ≠ []) (hhead : ∀ c ∈ core.head?, ∀ p ∈ classes, p c = false)
    (hlast : ∀ c ∈ core.getLast?, ∀ p ∈ classes, p c = false) (front back : Text) :
    trimEach classes (front ++ core ++ back) =
      dropEach classes front ++ core ++ (dropEach classes back.reverse).reverse := by
  induction classes generalizing front back with
  | nil => simp [trimEach, dropEach]
  | cons p classes ih =>
    have hhead' : ∀ c ∈ core.head?, p c = false := fun c hc => hhead c hc p List.mem_cons_self
    have hlast' : ∀ c ∈ core.getLast?, p c = false := fun c hc => hlast c hc p List.mem_cons_self
    rw [trimEach_cons, trimBy_append hne hhead' hlast',
      ih (fun c hc q hq => hhead c hc q (List.mem_cons_of_mem _ hq))
        (fun c hc q hq => hlast c hc q (List.mem_cons_of_mem _ hq)),
      dropWhileEnd, List.reverse_reverse, dropEach, dropEach]

theorem trimEach_append_core (hne : core ≠ []) (hhead : ∀ c ∈ core.head?, ∀ p ∈ classes, p c = false)
    (hlast : ∀ c ∈ core.getLast?, ∀ p ∈ classes, p c = false) (front : Text) :
    trimEach classes (front ++ core) = dropEach classes front ++ core := by
  have htrim := trimEach_append hne hhead hlast front []
  rwa [List.append_nil, List.reverse_nil, dropEach_nil, List.reverse_nil, List.append_nil] at htrim

theorem trimEach_concat {c : Char} (hc : ∀ p ∈ classes, p c = false) (front : Text) :
    trimEach classes (front ++ [c]) = dropEach classes front ++ [c] := by
  have hends : ∀ d ∈ [c].head?, ∀ p ∈ classes, p d = false := by simpa using hc
  exact trimEach_append_core (List.cons_ne_nil c []) hends hends front

theorem trimEach_append_of_getLast? (hne : core ≠ [])
    (hlast : ∀ c ∈ core.getLast?, ∀ p ∈ classes, p c = false) (back : Text) :
    trimEach classes (core ++ back) =
      trimEach classes core ++ (dropEach classes back.reverse).reverse := by
  obtain ⟨front, c, rfl⟩ := (List.eq_nil_or_concat' core).resolve_left hne
  have hc : ∀ p ∈ classes, p c = false := hlast c (by simp)
  have hends : ∀ d ∈ [c].head?, ∀ p ∈ classes, p d = false := by simpa using hc
  rw [trimEach_append (List.cons_ne_nil c []) hends hends, trimEach_concat hc]

theorem getLast?_trimEach (hlast : ∀ c ∈ t.getLast?, ∀ p ∈ classes, p c = false) :
    (trimEach classes t).getLast? = t.getLast? := by
  rcases List.eq_nil_or_concat' t with rfl | ⟨front, c, rfl⟩
  · rw [List.sublist_nil.1 (trimEach_sublist classes [])]
  · rw [trimEach_concat (hlast c (by simp)), List.getLast?_concat, List.getLast?_concat]

theorem trimEach_eq_nil (hfront : Layered classes front) (hback : Layered classes back.reverse) :
    trimEach classes (front ++ back) = [] := by
  induction classes generalizing front back with
  | nil =>
    rw [layered_iff] at hfront hback
    simpa [trimEach, dropEach] using And.intro hfront hback
  | cons p classes ih =>
    obtain ⟨a, front, rfl, ha, hinner⟩ := layered_cons_iff.1 hfront
    obtain ⟨b, rest, hb, hall, hrest⟩ := layered_cons_iff.1 hback
    obtain rfl : back = rest.reverse ++ b.reverse := by
      rw [← List.reverse_append, ← hb, List.reverse_reverse]
    -- the inner runs of both sides may merge in this class, so only parts of them are left
    have htrim : trimBy p (a ++ front ++ (rest.reverse ++ b.reverse)) =
        trimBy p (front ++ rest.reverse) := by
      rw [List.append_assoc a, ← List.append_assoc front, ← List.append_assoc a]
      exact trimBy_append_of_all ha (by simpa using hall) _
    obtain ⟨front', back', hparts, hfront', hback'⟩ :=
      List.sublist_append_iff.1 (trimBy_sublist p (front ++ rest.reverse))
    rw [trimEach_cons, htrim, hparts]
    refine ih (hinner.sublist hfront') (hrest.sublist ?_)
    simpa using hback'.reverse

theorem trimEach_append_of_layered (hlast : ∀ c ∈ core.getLast?, ∀ p ∈ classes, p c = false)
    (hback : Layered classes back.reverse) :
    trimEach classes (core ++ back) = trimEach classes core := by
  by_cases hne : core = []
  · have hnil : Layered classes [] := layered_iff.2 (dropEach_nil classes)
    rw [hne, trimEach_eq_nil hnil hback, List.sublist_nil.1 (trimEach_sublist classes [])]
  · rw [trimEach_append_of_getLast? hne hlast, layered_iff.1 hback, List.reverse_nil,
      List.append_nil]

/-- **Sides that are made of runs are trimmed completely**, and what is between them stays if no class
has a character of its ends. -/
theorem trimEach_of_layered (hfront : Layered classes front) (hback : Layered classes back.reverse)
    (hhead : ∀ c ∈ core.head?, ∀ p ∈ classes, p c = false)
    (hlast : ∀ c ∈ core.getLast?, ∀ p ∈ classes, p c = false) :
    trimEach classes (front ++ core ++ back) = core := by
  by_cases hne : core = []
  · rw [hne, List.append_nil, trimEach_eq_nil hfront hback]
  · rw [trimEach_append hne hhead hlast, layered_iff.1 hfront, layered_iff.1 hback]
    simp

end Text

end MinedRules
