import Mathlib.Data.List.Nodup

/-!
Dictionaries as lists of entries, in the order of insertion.
-/

namespace Relay.Data

variable {K α : Type} [DecidableEq K]

/-- `d[key] = value`: in its place if the key is there, else at the end. -/
def put (key : K) (value : α) : List (K × α) → List (K × α)
  | [] => [(key, value)]
  | (k, v) :: rest => if k = key then (k, value) :: rest else (k, v) :: put key value rest

/-- `d.pop(key, None)`, as far as the dictionary goes. -/
def remove (key : K) (d : List (K × α)) : List (K × α) := d.filter fun entry => entry.1 ≠ key

theorem keys_put (key : K) (value : α) (d : List (K × α)) :
    (put key value d).map Prod.fst = if key ∈ d.map Prod.fst then d.map Prod.fst else d.map Prod.fst ++ [key] := by
  induction d with
  | nil => rfl
  | cons entry rest ih =>
      obtain ⟨k, v⟩ := entry
      rw [put]
      split
      · rename_i same
        simp [same]
      · rename_i other
        rw [List.map_cons, ih]
        by_cases mem : key ∈ rest.map Prod.fst
        · rw [if_pos mem, List.map_cons, if_pos (List.mem_cons_of_mem _ mem)]
        · have fresh : key ∉ ((k, v) :: rest).map Prod.fst := by
            rw [List.map_cons, List.mem_cons, not_or]
            exact ⟨Ne.symm other, mem⟩
          rw [if_neg mem, if_neg fresh]
          rfl

theorem nodup_put (key : K) (value : α) {d : List (K × α)} (distinct : (d.map Prod.fst).Nodup) :
    ((put key value d).map Prod.fst).Nodup := by
  rw [keys_put]
  split
  · exact distinct
  · rename_i fresh
    rw [List.nodup_append]
    refine ⟨distinct, List.nodup_singleton _, fun k mem k' mem' same => ?_⟩
    rw [List.mem_singleton.mp mem'] at same
    exact fresh (same ▸ mem)

/-- The entries after `d[key] = value`. -/
theorem mem_put {key : K} {value : α} {d : List (K × α)} (distinct : (d.map Prod.fst).Nodup) {entry : K × α} :
    entry ∈ put key value d ↔ entry = (key, value) ∨ (entry ∈ d ∧ entry.1 ≠ key) := by
  induction d with
  | nil => simp [put]
  | cons first rest ih =>
      obtain ⟨k, v⟩ := first
      obtain ⟨fresh, distinct⟩ := List.nodup_cons.mp distinct
      rw [put]
      split
      · rename_i same
        subst same
        have apart : ∀ entry ∈ rest, entry.1 ≠ k := by
          intro entry mem same
          have key : entry.1 ∈ rest.map Prod.fst := List.mem_map_of_mem mem
          exact fresh (same ▸ key)
        constructor
        · intro mem
          rcases List.mem_cons.mp mem with rfl | mem
          · exact .inl rfl
          · exact .inr ⟨List.mem_cons_of_mem _ mem, apart entry mem⟩
        · rintro (rfl | ⟨mem, other⟩)
          · exact List.mem_cons_self
          · rcases List.mem_cons.mp mem with rfl | mem
            · exact absurd rfl other
            · exact List.mem_cons_of_mem _ mem
      · rename_i other
        rw [List.mem_cons, ih distinct, List.mem_cons]
        constructor
        · rintro (rfl | rfl | ⟨mem, apart⟩)
          · exact .inr ⟨.inl rfl, other⟩
          · exact .inl rfl
          · exact .inr ⟨.inr mem, apart⟩
        · rintro (rfl | ⟨rfl | mem, apart⟩)
          · exact .inr (.inl rfl)
          · exact .inl rfl
          · exact .inr (.inr ⟨mem, apart⟩)

/-- Other keys keep their values. -/
theorem lookup_put_of_ne {key other : K} {value : α} {d : List (K × α)} (apart : other ≠ key) :
    (put key value d).lookup other = d.lookup other := by
  induction d with
  | nil => rw [put, List.lookup_cons, beq_false_of_ne apart, List.lookup_nil]
  | cons first rest ih =>
      obtain ⟨k, v⟩ := first
      rw [put]
      split
      · rename_i same
        subst same
        rw [List.lookup_cons, List.lookup_cons, beq_false_of_ne apart]
      · rw [List.lookup_cons, List.lookup_cons, ih]

theorem nodup_remove (key : K) {d : List (K × α)} (distinct : (d.map Prod.fst).Nodup) :
    ((remove key d).map Prod.fst).Nodup :=
  distinct.sublist (List.filter_sublist.map Prod.fst)

theorem mem_remove {key : K} {d : List (K × α)} {entry : K × α} :
    entry ∈ remove key d ↔ entry ∈ d ∧ entry.1 ≠ key := by
  rw [remove, List.mem_filter, decide_eq_true_eq]

/-- What is found under a key is an entry. -/
theorem mem_of_lookup {key : K} {value : α} {d : List (K × α)} (found : d.lookup key = some value) :
    (key, value) ∈ d := by
  obtain ⟨before, after, rfl, -⟩ := List.lookup_eq_some_iff.mp found
  simp

end Relay.Data
