import Relay.Sqs.Queue

/-!
A queue as its one consumer sees it, while no hold expires.

A receive holds the messages that it returns: nobody receives them until they are
released. A call that fails has no effect, so here, unlike in `State`, what a call
reports is what it did.
-/

namespace Relay.Sqs

structure Shelf where
  stored : List Message
  /-- The ids of the messages that are not visible. -/
  held : List String

/-- A receive may return it. -/
def Shelf.Visible (s : Shelf) (m : Message) : Prop := m ∈ s.stored ∧ m.messageId ∉ s.held

def Received.id (r : Received) : String := r.message.messageId

def Shelf.hold (s : Shelf) (batch : List Received) : Shelf :=
  { s with held := s.held ++ batch.map Received.id }

def Shelf.release (s : Shelf) (messageId : String) : Shelf :=
  { s with held := s.held.filter (· ≠ messageId) }

def Shelf.remove (s : Shelf) (messageId : String) : Shelf where
  stored := s.stored.filter (·.messageId ≠ messageId)
  held := s.held.filter (· ≠ messageId)

/-- The messages of a batch are visible, distinct and named by their receipts. -/
structure Shelf.Batch (s : Shelf) (batch : List Received) : Prop where
  visible : ∀ r ∈ batch, s.Visible r.message
  receipts : ∀ r ∈ batch, r.receiptHandle.messageId = r.id
  distinct : (batch.map Received.id).Nodup

/-- A receive holds what it returns. -/
def Shelf.Receives (s : Shelf) (max : Nat) (reply : Except String (List Received)) (s' : Shelf) : Prop :=
  match reply with
  | .error _ => s' = s
  | .ok batch => batch.length ≤ max ∧ s.Batch batch ∧ s' = s.hold batch

theorem Shelf.hold_nil (s : Shelf) : s.hold [] = s := by
  simp [Shelf.hold]

theorem Shelf.hold_append (s : Shelf) (first rest : List Received) :
    s.hold (first ++ rest) = (s.hold first).hold rest := by
  simp [Shelf.hold, List.append_assoc]

theorem Shelf.batch_nil (s : Shelf) : s.Batch [] := ⟨by simp, by simp, by simp⟩

/-- What is received after a batch was not in it. -/
theorem Shelf.Batch.append {s : Shelf} {first rest : List Received} (start : s.Batch first)
    (later : (s.hold first).Batch rest) : s.Batch (first ++ rest) where
  visible := by
    intro r mem
    rcases List.mem_append.mp mem with mem | mem
    · exact start.visible r mem
    · obtain ⟨stored, free⟩ := later.visible r mem
      refine ⟨stored, fun held => free ?_⟩
      exact List.mem_append_left _ held
  receipts := by
    intro r mem
    rcases List.mem_append.mp mem with mem | mem
    · exact start.receipts r mem
    · exact later.receipts r mem
  distinct := by
    rw [List.map_append, List.nodup_append]
    refine ⟨start.distinct, later.distinct, ?_⟩
    rintro id before id' after rfl
    obtain ⟨r, mem, rfl⟩ := List.mem_map.mp after
    exact (later.visible r mem).2 (List.mem_append_right _ before)

/-- The messages that a receive may return. -/
def Shelf.free (s : Shelf) : List Message := s.stored.filter (·.messageId ∉ s.held)

/-- A receive that returns messages leaves fewer of them to receive. -/
theorem Shelf.free_hold {s : Shelf} {batch : List Received} (fresh : s.Batch batch) (some_ : batch ≠ []) :
    (s.hold batch).free.length < s.free.length := by
  have split : (s.hold batch).free = s.free.filter (·.messageId ∉ batch.map Received.id) := by
    simp [Shelf.free, Shelf.hold, List.filter_filter, not_or, Bool.and_comm]
  obtain ⟨r, mem⟩ := List.exists_mem_of_ne_nil _ some_
  obtain ⟨stored, unheld⟩ := fresh.visible r mem
  rw [split, List.length_filter_lt_length_iff_exists]
  refine ⟨r.message, ?_, ?_⟩
  · rw [Shelf.free, List.mem_filter]
    exact ⟨stored, by simpa using unheld⟩
  · have taken : r.message.messageId ∈ batch.map Received.id := List.mem_map_of_mem mem
    simpa using taken

/-- Some of a shelf's messages are visible again. -/
def Shelf.releaseAll (s : Shelf) (ids : List String) : Shelf :=
  { s with held := s.held.filter (· ∉ ids) }

theorem Shelf.releaseAll_nil (s : Shelf) : s.releaseAll [] = s := by
  simp [Shelf.releaseAll]

theorem Shelf.releaseAll_cons (s : Shelf) (id : String) (ids : List String) :
    s.releaseAll (id :: ids) = (s.release id).releaseAll ids := by
  simp [Shelf.releaseAll, Shelf.release, List.filter_filter, Bool.and_comm]

/-- Some of a shelf's messages are gone. -/
def Shelf.removeAll (s : Shelf) (ids : List String) : Shelf where
  stored := s.stored.filter (·.messageId ∉ ids)
  held := s.held.filter (· ∉ ids)

theorem Shelf.removeAll_nil (s : Shelf) : s.removeAll [] = s := by
  simp [Shelf.removeAll]

theorem Shelf.removeAll_cons (s : Shelf) (id : String) (ids : List String) :
    s.removeAll (id :: ids) = (s.remove id).removeAll ids := by
  simp [Shelf.removeAll, Shelf.remove, List.filter_filter, not_or, Bool.and_comm]

end Relay.Sqs
