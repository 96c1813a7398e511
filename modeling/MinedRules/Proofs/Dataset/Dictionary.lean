import MinedRules.Dataset.Dictionary
import Mathlib.Data.List.Nodup

/-!
# The names of a dictionary

The number of a name is its place in the list of names, where it stands once.

* `Dictionary.id?_eq_some_iff` : the number of a name.
* `Dictionary.toList_intern` : the names after one more.
* `Dictionary.mem_internAll` : the names after a list of names.
* `Dictionary.lookup_entries` : the name of a number.
-/

namespace MinedRules

namespace Dictionary

variable {d : Dictionary} {name : Text} {names : List Text} {id : Nat}

/-! ### Names and numbers -/

/-- **The number of a name is its place.** -/
theorem id?_eq_some_iff : d.id? name = some id ↔ d.toList[id]? = some name := by
  rw [id?, d.index_eq, toList, Array.getElem?_toList]

theorem exists_id?_iff : (∃ id, d.id? name = some id) ↔ name ∈ d.toList := by
  simp only [id?_eq_some_iff, List.mem_iff_getElem?]

theorem nodup_toList (d : Dictionary) : d.toList.Nodup := by
  rw [List.nodup_iff_getElem?_ne_getElem?]
  intro i j hij hj heq
  have hname : d.id? d.toList[j] = some j := id?_eq_some_iff.2 (List.getElem?_eq_getElem hj)
  have hname' : d.id? d.toList[j] = some i :=
    id?_eq_some_iff.2 (heq.trans (List.getElem?_eq_getElem hj))
  exact absurd (Option.some.inj (hname'.symm.trans hname)) (Nat.ne_of_lt hij)

/-! ### Entries -/

theorem map_snd_entries (d : Dictionary) : d.entries.map Prod.snd = d.toList := by
  rw [entries, List.map_map]
  exact List.zipIdx_map_fst ..

theorem map_fst_entries (d : Dictionary) :
    d.entries.map Prod.fst = List.range d.entries.length := by
  rw [entries, List.map_map, List.length_map, List.length_zipIdx, List.range_eq_range']
  exact List.zipIdx_map_snd ..

theorem lookup_zipIdx (names : List Text) (start id : Nat) :
    ((names.zipIdx start).map fun (name, id) => (id, name)).lookup (start + id) = names[id]? := by
  -- for every start, since the names behind the first one begin with the next number
  induction names generalizing start id with
  | nil => rfl
  | cons name names ih =>
    rw [List.zipIdx_cons, List.map_cons, List.lookup_cons]
    cases id with
    | zero => simp
    | succ id =>
      have hne : (start + (id + 1) == start) = false := by simp
      rw [hne, List.getElem?_cons_succ, ← ih (start + 1) id, Nat.add_assoc, Nat.add_comm 1 id]

theorem lookup_entries (d : Dictionary) (id : Nat) : d.entries.lookup id = d.toList[id]? := by
  have hlookup := lookup_zipIdx d.toList 0 id
  rwa [Nat.zero_add] at hlookup

/-! ### More names -/

theorem toList_empty : (∅ : Dictionary).toList = [] := rfl

theorem toList_intern (d : Dictionary) (name : Text) :
    (d.intern name).2.toList = if name ∈ d.toList then d.toList else d.toList ++ [name] := by
  rw [intern]
  split
  · next id h =>
    rw [if_pos (exists_id?_iff.1 ⟨id, h⟩)]
  · next h =>
    have hname : name ∉ d.toList := fun hmem => by
      obtain ⟨id, hid⟩ := exists_id?_iff.2 hmem
      exact absurd (h.symm.trans hid) nofun
    rw [if_neg hname]
    exact Array.toList_push

theorem mem_intern {other : Text} :
    other ∈ (d.intern name).2.toList ↔ other = name ∨ other ∈ d.toList := by
  rw [toList_intern]
  split
  · next h => exact (or_iff_right_of_imp fun heq => heq ▸ h).symm
  · rw [List.mem_append, List.mem_singleton, or_comm]

/-- The dictionary with all names of a list. -/
def internAll (d : Dictionary) (names : List Text) : Dictionary :=
  names.foldl (fun d name => (d.intern name).2) d

theorem mem_internAll : name ∈ (d.internAll names).toList ↔ name ∈ names ∨ name ∈ d.toList := by
  induction names generalizing d with
  | nil => simp [internAll]
  | cons first names ih =>
    have hcons : d.internAll (first :: names) = (d.intern first).2.internAll names := rfl
    rw [hcons, ih, mem_intern, List.mem_cons, or_left_comm, or_assoc]

end Dictionary

end MinedRules
