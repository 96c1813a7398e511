import MinedRules.Proofs.Text.Occurrences
import MinedRules.Proofs.Text.Trimming
import MinedRules.Rule.Inverse
import Mathlib.Data.List.Forall2

/-!
# Exchanging the arguments of marked literals

What the steps of `resolveInverse` find in a text, as equations between the text and its parts.

* `Application.ofText?_eq_some_iff` : an argument list goes from the first parenthesis, which is an
  opening one, to the first closing one.
* `swapArguments_eq_ok_iff` : a piece is swapped if and only if its first argument list has exactly
  one comma.
* `resolveInverse_eq_ok_iff` : the clause that comes out, in terms of the pieces of the body.
-/

namespace MinedRules

theorem Application.ofText?_eq_some_iff {piece : Text} {a : Application} :
    ofText? piece = some a ↔ piece = a.name ++ '(' :: a.args ++ ')' :: a.rest ∧
      (∀ c ∈ a.name, isParen c = false) ∧ ')' ∉ a.args := by
  constructor
  · intro h
    unfold ofText? at h
    split at h
    · next t ht =>
      split at h
      · next d rest hrest =>
        rw [Option.some.injEq] at h
        subst h
        have hd : d = ')' := by
          have := Text.head?_dropWhile (· != ')') t d (by rw [hrest]; rfl)
          simpa using this
        have h1 := List.takeWhile_append_dropWhile (p := fun c => !isParen c) (l := piece)
        have h2 := List.takeWhile_append_dropWhile (p := (· != ')')) (l := t)
        rw [ht] at h1
        rw [hrest, hd] at h2
        refine ⟨?_, fun c hc => ?_, fun hc => ?_⟩
        · simp only [List.append_assoc, List.cons_append]
          rw [h2, h1]
        · simpa using List.mem_takeWhile_imp hc
        · simpa using List.mem_takeWhile_imp hc
      · simp at h
    · simp at h
  · rintro ⟨rfl, hname, hargs⟩
    have hname' : ∀ c ∈ a.name, (!isParen c) = true := fun c hc => by simp [hname c hc]
    have hargs' : ∀ c ∈ a.args, (c != ')') = true := fun c hc => by
      simp only [bne_iff_ne]
      rintro rfl
      exact hargs hc
    rw [List.append_assoc, ofText?]
    rw [Text.dropWhile_append_of_stop hname' (by simp [isParen]),
      Text.takeWhile_append_of_stop hname' (by simp [isParen])]
    simp only [List.cons_append]
    rw [Text.dropWhile_append_of_stop hargs' (by simp), Text.takeWhile_append_of_stop hargs' (by simp)]

theorem splitOn_eq_pair_iff {x : Char} {t first second : Text} :
    t.splitOn x = [first, second] ↔ t = first ++ x :: second ∧ x ∉ first ∧ x ∉ second := by
  constructor
  · intro h
    have ht : List.intercalate [x] (t.splitOn x) = t := List.intercalate_splitOn x
    rw [h] at ht
    refine ⟨by simpa using ht.symm, ?_, ?_⟩
    · exact not_mem_of_mem_splitOn (t := t) (by simp [h])
    · exact not_mem_of_mem_splitOn (t := t) (by simp [h])
  · rintro ⟨rfl, h1, h2⟩
    rw [List.splitOn_append_cons_self_of_not_mem h1, List.splitOn_eq_singleton h2]

/-- A piece after a marker whose first argument list has two parts. -/
structure IsPair (piece name first second rest : Text) : Prop where
  text : piece = name ++ '(' :: first ++ ',' :: second ++ ')' :: rest
  name : ∀ c ∈ name, isParen c = false
  first : ')' ∉ first ∧ ',' ∉ first
  second : ')' ∉ second ∧ ',' ∉ second

/-- The piece with the two parts of its argument list exchanged and trimmed. -/
def exchanged (name first second rest : Text) : Text :=
  name ++ '(' :: Text.trim second ++ ',' :: Text.trim first ++ ')' :: rest

/-- **A piece is swapped if and only if its first argument list has exactly two parts.** -/
theorem swapArguments_eq_ok_iff {marker piece swapped : Text} :
    swapArguments marker piece = .ok swapped ↔ ∃ name first second rest,
      IsPair piece name first second rest ∧ swapped = exchanged name first second rest := by
  constructor
  · intro h
    unfold swapArguments at h
    split at h
    · simp at h
    · next a ha =>
      obtain ⟨rfl, hname, hargs⟩ := Application.ofText?_eq_some_iff.1 ha
      split at h
      · next first second hparts =>
        rw [Except.ok.injEq] at h
        obtain ⟨hargs', h1, h2⟩ := splitOn_eq_pair_iff.1 hparts
        rw [hargs', List.mem_append, List.mem_cons, not_or, not_or] at hargs
        refine ⟨a.name, first, second, a.rest, ⟨?_, hname, ⟨hargs.1, h1⟩, ⟨hargs.2.2, h2⟩⟩, h.symm⟩
        rw [hargs']
        simp
      · simp at h
  · rintro ⟨name, first, second, rest, ⟨rfl, hname, h1, h2⟩, rfl⟩
    have ha : Application.ofText? (name ++ '(' :: first ++ ',' :: second ++ ')' :: rest) =
        some ⟨name, first ++ ',' :: second, rest⟩ :=
      Application.ofText?_eq_some_iff.2 ⟨by simp, hname, by simp [h1.1, h2.1]⟩
    rw [swapArguments, ha]
    simp only [splitOn_eq_pair_iff.2 ⟨rfl, h1.2, h2.2⟩]
    rfl

theorem swapPieces_eq_ok_iff {marker s : Text} {pieces : List Text} :
    swapPieces marker pieces = .ok s ↔ ∃ swapped,
      List.Forall₂ (fun p q => swapArguments marker p = .ok q) pieces swapped ∧
        s = swapped.flatten := by
  induction pieces generalizing s with
  | nil => simp [swapPieces, eq_comm]
  | cons piece pieces ih =>
    rw [swapPieces]
    constructor
    · intro h
      split at h
      · simp at h
      · next q hq =>
        split at h
        · simp at h
        · next rest hrest =>
          obtain ⟨swapped, hall, rfl⟩ := ih.1 hrest
          rw [Except.ok.injEq] at h
          exact ⟨q :: swapped, .cons hq hall, h.symm⟩
    · rintro ⟨_, hall, rfl⟩
      cases hall with
      | cons hq hall =>
        rw [hq]
        simp only [ih.2 ⟨_, hall, rfl⟩, List.flatten_cons]

/-- **What a resolved clause is made of**: its head, its neck, the first piece of its body and the
swapped pieces after the markers. -/
theorem resolveInverse_eq_ok_iff {marker clause c : Text} :
    resolveInverse marker clause = .ok c ↔ ∃ head body piece pieces swapped,
      Text.cut? neck clause = some (head, body) ∧ Text.split marker body = piece :: pieces ∧
        List.Forall₂ (fun p q => swapArguments marker p = .ok q) pieces swapped ∧
        c = Text.trimEnd head ++ ' ' :: neck ++ ' ' ::
          Text.trimStart (piece ++ swapped.flatten) := by
  constructor
  · intro h
    unfold resolveInverse at h
    split at h
    · simp at h
    · next head body hcut =>
      obtain ⟨piece, pieces, hsplit⟩ := List.exists_cons_of_ne_nil (Text.split_ne_nil marker body)
      simp only [hsplit, List.tail_cons, List.headD_cons] at h
      split at h
      · simp at h
      · next s hs =>
        obtain ⟨swapped, hall, rfl⟩ := swapPieces_eq_ok_iff.1 hs
        rw [Except.ok.injEq] at h
        exact ⟨head, body, piece, pieces, swapped, hcut, hsplit, hall, h.symm⟩
  · rintro ⟨head, body, piece, pieces, swapped, hcut, hsplit, hall, rfl⟩
    have hs : swapPieces marker pieces = .ok swapped.flatten :=
      swapPieces_eq_ok_iff.2 ⟨swapped, hall, rfl⟩
    simp only [resolveInverse, hcut, hsplit, List.tail_cons, List.headD_cons, hs]

end MinedRules
