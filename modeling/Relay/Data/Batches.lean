import Mathlib.Data.Nat.Notation
import Mathlib.Data.List.Basic

/-!
A list in batches of a given size, the last one perhaps shorter.
-/

namespace Relay.Data

variable {α : Type}

def batchesFrom (size : Nat) : (fuel : Nat) → List α → List (List α)
  | 0, _ => []
  | _, [] => []
  | fuel + 1, x :: xs => (x :: xs).take size :: batchesFrom size fuel ((x :: xs).drop size)

/-- The slices `xs[i:i+size]` for `i = 0, size, 2 * size, …`. -/
def batches (size : Nat) (xs : List α) : List (List α) := batchesFrom size xs.length xs

theorem batchesFrom_enough {size : Nat} (pos : 0 < size) {fuel fuel' : Nat} {xs : List α}
    (enough : xs.length ≤ fuel) (enough' : xs.length ≤ fuel') :
    batchesFrom size fuel xs = batchesFrom size fuel' xs := by
  induction fuel generalizing fuel' xs with
  | zero =>
      obtain rfl := List.eq_nil_of_length_eq_zero (Nat.le_zero.mp enough)
      cases fuel' <;> rfl
  | succ fuel ih =>
      cases xs with
      | nil => cases fuel' <;> rfl
      | cons x xs =>
          cases fuel' with
          | zero => cases enough'
          | succ fuel' =>
              have shorter : ((x :: xs).drop size).length ≤ xs.length := by
                rw [List.length_drop, List.length_cons]
                omega
              simp only [List.length_cons] at enough enough'
              rw [batchesFrom, batchesFrom, ih (by omega) (show _ ≤ fuel' by omega)]

/-- The first batch, and the batches of the rest. -/
theorem batches_of_ne_nil {size : Nat} (pos : 0 < size) {xs : List α} (nonempty : xs ≠ []) :
    batches size xs = xs.take size :: batches size (xs.drop size) := by
  cases xs with
  | nil => exact absurd rfl nonempty
  | cons x xs =>
      have shorter : ((x :: xs).drop size).length ≤ xs.length := by
        rw [List.length_drop, List.length_cons]
        omega
      rw [batches, List.length_cons, batchesFrom, batches,
        batchesFrom_enough pos shorter (Nat.le_refl _)]

/-- Induction batch by batch. -/
theorem batches_induction (size : Nat) (pos : 0 < size) {motive : List α → Prop} (nil : motive [])
    (batch : ∀ xs, xs ≠ [] → motive (xs.drop size) → motive xs) (xs : List α) : motive xs := by
  by_cases empty : xs = []
  · rw [empty]
    exact nil
  · exact batch xs empty (batches_induction size pos nil batch (xs.drop size))
termination_by xs.length
decreasing_by
  have some_ := List.length_pos_of_ne_nil empty
  rw [List.length_drop]
  omega

/-- The batches are the list. -/
theorem flatten_batches {size : Nat} (pos : 0 < size) (xs : List α) : (batches size xs).flatten = xs := by
  induction xs using batches_induction size pos with
  | nil => rfl
  | batch xs some_ ih => rw [batches_of_ne_nil pos some_, List.flatten_cons, ih, List.take_append_drop]

/-- A batch is not empty and not larger than the size. -/
theorem length_of_mem_batches {size : Nat} (pos : 0 < size) {xs batch : List α} (mem : batch ∈ batches size xs) :
    1 ≤ batch.length ∧ batch.length ≤ size := by
  induction xs using batches_induction size pos with
  | nil => cases mem
  | batch xs some_ ih =>
      rw [batches_of_ne_nil pos some_, List.mem_cons] at mem
      rcases mem with rfl | mem
      · have long := List.length_pos_of_ne_nil some_
        rw [List.length_take]
        omega
      · exact ih mem

theorem mem_batches {size : Nat} (pos : 0 < size) {xs : List α} {x : α} :
    (∃ batch ∈ batches size xs, x ∈ batch) ↔ x ∈ xs := by
  rw [← List.mem_flatten, flatten_batches pos]

end Relay.Data
