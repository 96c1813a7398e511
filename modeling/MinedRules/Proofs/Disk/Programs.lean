import MinedRules.Disk.Change
import MinedRules.Failure

/-!
# Programs on a state

A program runs in a state, such as a file tree, and gives a result or fails; in both cases it leaves a
state behind.

* `Reads` : a program that leaves the state as it is.
* `run_bind`, `run_orFail` : how other programs run, step by step.
* `run_bind_eq_ok_iff`, `run_orFail_eq_ok_iff` : when they succeed.
-/

namespace MinedRules

/-! ### Programs that only read -/

section Reads

variable {σ ε α β : Type} {s : σ}

/-- In this state the program gives the result, and it leaves the state as it is. -/
def Reads (x : ExceptT ε (StateM σ) α) (s : σ) (r : Except ε α) : Prop := x.run.run s = (r, s)

variable {x : ExceptT ε (StateM σ) α} {r : Except ε α}

theorem reads_pure (a : α) : Reads (ε := ε) (pure a) s (.ok a) := rfl

theorem reads_liftM {y : StateM σ α} {a : α} (h : y.run s = (a, s)) :
    Reads (ε := ε) (liftM y) s (.ok a) :=
  congrArg (fun result : α × σ => ((.ok result.1 : Except ε α), result.2)) h

theorem Reads.bind {f : α → ExceptT ε (StateM σ) β} {g : α → Except ε β} (h : Reads x s r)
    (hf : ∀ a, r = .ok a → Reads (f a) s (g a)) : Reads (x >>= f) s (r >>= g) := by
  rw [Reads] at h
  rw [Reads, ExceptT.run_bind, StateT.run_bind, h]
  cases r with
  | ok a => exact hf a rfl
  | error e => rfl

theorem Reads.bind_ok {a : α} {f : α → ExceptT ε (StateM σ) β} {r : Except ε β}
    (h : Reads x s (.ok a)) (hf : Reads (f a) s r) : Reads (x >>= f) s r := by
  refine h.bind (g := fun _ => r) fun b hb => ?_
  obtain rfl := Except.ok.inj hb
  exact hf

theorem reads_orFail {c : Context} {y : StateM σ (Except OsError α)} {a : α}
    (h : y.run s = (.ok a, s)) : Reads (orFail c y) s (.ok a) := by
  rw [Reads, orFail, ExceptT.run_mk, StateT.run_bind, h]
  rfl

theorem reads_mapM {f : α → ExceptT ε (StateM σ) β} {g : α → Except ε β} {l : List α}
    (h : ∀ a ∈ l, Reads (f a) s (g a)) : Reads (l.mapM f) s (l.mapM g) := by
  induction l with
  | nil => exact reads_pure []
  | cons a l ih =>
    rw [List.mapM_cons, List.mapM_cons]
    exact (h a List.mem_cons_self).bind fun b _ =>
      (ih fun a ha => h a (List.mem_cons_of_mem _ ha)).bind fun bs _ => reads_pure (b :: bs)

/-- The elements that pass are collected in front of `kept`, the last one first. -/
theorem reads_filterAuxM {f : α → ExceptT ε (StateM σ) Bool} {g : α → Bool} {l kept : List α}
    (h : ∀ a ∈ l, Reads (f a) s (.ok (g a))) :
    Reads (l.filterAuxM f kept) s (.ok ((l.filter g).reverse ++ kept)) := by
  induction l generalizing kept with
  | nil => exact reads_pure kept
  | cons a l ih =>
    have hl : Reads ((a :: l).filterAuxM f kept) s
        (.ok ((l.filter g).reverse ++ (bif g a then a :: kept else kept))) :=
      (h a List.mem_cons_self).bind_ok (ih fun a ha => h a (List.mem_cons_of_mem _ ha))
    cases ha : g a with
    | true => simpa [ha] using hl
    | false => simpa [ha] using hl

theorem reads_filterM {f : α → ExceptT ε (StateM σ) Bool} {g : α → Bool} {l : List α}
    (h : ∀ a ∈ l, Reads (f a) s (.ok (g a))) : Reads (l.filterM f) s (.ok (l.filter g)) := by
  have hl : Reads (l.filterM f) s (.ok ((l.filter g).reverse ++ []).reverse) :=
    (reads_filterAuxM h).bind_ok (reads_pure _)
  simpa using hl

theorem Reads.self (h : Reads x s r) : Reads x s (x.run.run s).1 := by
  rw [Reads] at h ⊢
  rw [h]

end Reads

/-! ### Running -/

section Running

variable {σ ε α β : Type} {s s' : σ}

theorem run_bind (x : ExceptT ε (StateM σ) α) (f : α → ExceptT ε (StateM σ) β) (s : σ) :
    (x >>= f).run.run s =
      match x.run.run s with
      | (.ok a, s') => (f a).run.run s'
      | (.error e, s') => (.error e, s') := by
  rw [ExceptT.run_bind, StateT.run_bind]
  rcases x.run.run s with ⟨_ | _, s'⟩ <;> rfl

theorem run_orFail (c : Context) (y : StateM σ (Except OsError α)) (s : σ) :
    (orFail c y).run.run s =
      ((y.run s).1.mapError fun e => { contexts := [c], cause := .os e }, (y.run s).2) := by
  rw [orFail, ExceptT.run_mk, StateT.run_bind]
  rcases y.run s with ⟨_ | _, s'⟩ <;> rfl

theorem run_bind_eq_ok_iff {x : ExceptT ε (StateM σ) α} {f : α → ExceptT ε (StateM σ) β} {b : β} :
    (x >>= f).run.run s = (.ok b, s') ↔
      ∃ a s₁, x.run.run s = (.ok a, s₁) ∧ (f a).run.run s₁ = (.ok b, s') := by
  rw [run_bind]
  rcases x.run.run s with ⟨e | a, s₁⟩
  · refine iff_of_false (fun h => nomatch (Prod.mk.inj h).1) fun ⟨_, _, h, _⟩ => ?_
    exact nomatch (Prod.mk.inj h).1
  · refine ⟨fun h => ⟨a, s₁, rfl, h⟩, fun ⟨a', s', hx, h⟩ => ?_⟩
    obtain ⟨ha, rfl⟩ := Prod.mk.inj hx
    obtain rfl := Except.ok.inj ha
    exact h

theorem run_orFail_eq_ok_iff {c : Context} {y : StateM σ (Except OsError α)} {a : α} :
    (orFail c y).run.run s = (.ok a, s') ↔ y.run s = (.ok a, s') := by
  rw [run_orFail]
  rcases y.run s with ⟨e | b, s₁⟩
  · exact iff_of_false (fun h => nomatch (Prod.mk.inj h).1) fun h => nomatch (Prod.mk.inj h).1
  · constructor <;> intro h <;> obtain ⟨hb, rfl⟩ := Prod.mk.inj h <;>
      obtain rfl := Except.ok.inj hb <;> rfl

end Running

end MinedRules
