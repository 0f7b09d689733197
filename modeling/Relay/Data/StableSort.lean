import Mathlib.Data.List.Sort

/-!
Sorting by several keys, one stable sort after another.

`sortAll` sorts by the last relation first and by the first one last. A sort keeps
the order of what it does not tell apart, so in the end the first relation decides,
then the second, and so on (`pairwise_sortAll`); elements that no relation tells
apart stay in their order (`filter_sortAll`).
-/

namespace Relay.Data

variable {α : Type}

/-! ### One sort -/

section One

variable (r : α → α → Prop) [DecidableRel r]

/-- What comes before under `r`, and under `R` where `r` does not decide. -/
def Refines (R : α → α → Prop) (a b : α) : Prop := r a b ∧ (r b a → R a b)

variable {r} {R : α → α → Prop}

theorem pairwise_orderedInsert_refines {x : α} {sorted : List α} (total : ∀ a b, r a b ∨ r b a)
    (trans : ∀ a b c, r a b → r b c → r a c) (older : ∀ b ∈ sorted, R x b)
    (ordered : sorted.Pairwise (Refines r R)) : (sorted.orderedInsert r x).Pairwise (Refines r R) := by
  induction sorted with
  | nil => exact List.pairwise_singleton _ _
  | cons b rest ih =>
      obtain ⟨head, tail⟩ := List.pairwise_cons.mp ordered
      by_cases first : r x b
      · rw [List.orderedInsert_cons_of_le r rest first, List.pairwise_cons]
        refine ⟨fun c mem => ?_, ordered⟩
        rcases List.mem_cons.mp mem with rfl | later
        · exact ⟨first, fun _ => older c List.mem_cons_self⟩
        · exact ⟨trans x b c first (head c later).1, fun _ => older c (List.mem_cons_of_mem _ later)⟩
      · rw [List.orderedInsert_of_not_le r rest first, List.pairwise_cons]
        refine ⟨fun c mem => ?_, ih (fun c mem => older c (List.mem_cons_of_mem _ mem)) tail⟩
        rcases (List.mem_orderedInsert r).mp mem with rfl | later
        · exact ⟨(total c b).resolve_left first, fun back => absurd back first⟩
        · exact head c later

/-- Sorting a list that is in the order `R`. -/
theorem pairwise_insertionSort_refines (total : ∀ a b, r a b ∨ r b a) (trans : ∀ a b c, r a b → r b c → r a c)
    {xs : List α} (ordered : xs.Pairwise R) : (xs.insertionSort r).Pairwise (Refines r R) := by
  induction xs with
  | nil => exact List.Pairwise.nil
  | cons x rest ih =>
      obtain ⟨head, tail⟩ := List.pairwise_cons.mp ordered
      rw [List.insertionSort_cons]
      exact pairwise_orderedInsert_refines total trans (fun b mem => head b ((List.mem_insertionSort r).mp mem)) (ih tail)

theorem filter_insert {p : α → Bool} {x : α} {sorted : List α} (tied : ∀ b ∈ sorted, p x = true → p b = true → r x b) :
    (sorted.orderedInsert r x).filter p = (x :: sorted).filter p := by
  induction sorted with
  | nil => rfl
  | cons b rest ih =>
      have later := ih fun c mem => tied c (List.mem_cons_of_mem _ mem)
      by_cases first : r x b
      · rw [List.orderedInsert_cons_of_le r rest first]
      · rw [List.orderedInsert_of_not_le r rest first]
        -- `x` passes over `b`, so not both of them are kept
        by_cases kept : p x = true
        · have dropped : ¬ p b = true := fun both => first (tied b List.mem_cons_self kept both)
          rw [List.filter_cons_of_neg dropped, later, List.filter_cons_of_pos kept, List.filter_cons_of_pos kept,
            List.filter_cons_of_neg dropped]
        · rw [List.filter_cons_of_neg kept] at later ⊢
          rw [List.filter_cons, List.filter_cons, later]

/-- Elements that the relation does not tell apart keep their order. -/
theorem filter_insertionSort {p : α → Bool} {xs : List α} (tied : ∀ a b, p a = true → p b = true → r a b) :
    (xs.insertionSort r).filter p = xs.filter p := by
  induction xs with
  | nil => rfl
  | cons x rest ih =>
      rw [List.insertionSort_cons, filter_insert fun b _ => tied x b, List.filter_cons, List.filter_cons, ih]

end One

/-! ### All sorts -/

/-- A relation to sort by. -/
structure Key (α : Type) where
  le : α → α → Prop
  dec : DecidableRel le
  total : ∀ a b, le a b ∨ le b a
  trans : ∀ a b c, le a b → le b c → le a c

attribute [instance] Key.dec

/-- Sort by every key, from the last to the first. -/
def sortAll (keys : List (Key α)) (xs : List α) : List α :=
  keys.foldr (fun key sorted => sorted.insertionSort key.le) xs

/-- The first key that tells two elements apart has the first one before. -/
def Lexicographic : List (Key α) → α → α → Prop
  | [], _, _ => True
  | key :: keys, a, b => key.le a b ∧ (key.le b a → Lexicographic keys a b)

theorem perm_sortAll (keys : List (Key α)) (xs : List α) : (sortAll keys xs).Perm xs := by
  induction keys with
  | nil => exact List.Perm.refl xs
  | cons key keys ih => exact (List.perm_insertionSort key.le _).trans ih

/-- **The result is ordered by the keys in turn.** -/
theorem pairwise_sortAll (keys : List (Key α)) (xs : List α) : (sortAll keys xs).Pairwise (Lexicographic keys) := by
  induction keys with
  | nil => exact List.pairwise_of_forall fun _ _ => trivial
  | cons key keys ih =>
      exact pairwise_insertionSort_refines key.total key.trans ih

/-- **Elements that no key tells apart keep their order.** -/
theorem filter_sortAll {keys : List (Key α)} {xs : List α} {p : α → Bool}
    (tied : ∀ key ∈ keys, ∀ a b, p a = true → p b = true → key.le a b) :
    (sortAll keys xs).filter p = xs.filter p := by
  induction keys with
  | nil => rfl
  | cons key keys ih =>
      have later := ih fun other mem => tied other (List.mem_cons_of_mem _ mem)
      exact (filter_insertionSort (tied key List.mem_cons_self)).trans later

end Relay.Data
