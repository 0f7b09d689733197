import Relay.Sqs.Shelf

/-!
A queue that gives every delivery a new receipt.

A hold can expire, so a message may be delivered again at any time. Only the
receipt of the last delivery can delete or release it; an older one is accepted
and does nothing.
-/

namespace Relay.Sqs

structure Tray where
  stored : List Message
  /-- The ids of the messages that are not visible. -/
  held : List String
  /-- The serial of a message's last receipt. -/
  latest : String → Option Nat

namespace Tray

/-- The receipt is that of its message's last delivery. -/
def Live (t : Tray) (receipt : Receipt) : Prop := t.latest receipt.messageId = some receipt.serial

instance (t : Tray) (receipt : Receipt) : Decidable (t.Live receipt) := by
  unfold Live
  infer_instance

/-- A message with this id is on the queue. -/
def Has (t : Tray) (messageId : String) : Prop := ∃ m ∈ t.stored, m.messageId = messageId

def deliver (t : Tray) (r : Received) : Tray where
  stored := t.stored
  held := r.id :: t.held
  latest := Function.update t.latest r.id (some r.receiptHandle.serial)

/-- The queue may deliver this, whether it is held or not. -/
structure Delivers (t : Tray) (r : Received) : Prop where
  stored : r.message ∈ t.stored
  receipt : r.receiptHandle.messageId = r.id
  fresh : ∀ n ∈ t.latest r.id, n < r.receiptHandle.serial

inductive DeliversAll : Tray → List Received → Tray → Prop where
  | nil {t : Tray} : DeliversAll t [] t
  | cons {t t' : Tray} {r : Received} {rest : List Received} :
      t.Delivers r → DeliversAll (t.deliver r) rest t' → DeliversAll t (r :: rest) t'

def Receives (t : Tray) (max : Nat) (reply : Except String (List Received)) (t' : Tray) : Prop :=
  match reply with
  | .error _ => t' = t
  | .ok batch => batch.length ≤ max ∧ DeliversAll t batch t'

def delete (t : Tray) (receipt : Receipt) : Tray :=
  if t.Live receipt then
    { t with
      stored := t.stored.filter (·.messageId ≠ receipt.messageId)
      held := t.held.filter (· ≠ receipt.messageId) }
  else t

def release (t : Tray) (receipt : Receipt) : Tray :=
  if t.Live receipt then { t with held := t.held.filter (· ≠ receipt.messageId) } else t

@[simp] theorem delete_latest (t : Tray) (receipt : Receipt) : (t.delete receipt).latest = t.latest := by
  unfold delete
  split <;> rfl

@[simp] theorem release_latest (t : Tray) (receipt : Receipt) : (t.release receipt).latest = t.latest := by
  unfold release
  split <;> rfl

@[simp] theorem release_stored (t : Tray) (receipt : Receipt) : (t.release receipt).stored = t.stored := by
  unfold release
  split <;> rfl

/-- A delete takes effect through a live receipt. -/
theorem delete_has {t : Tray} {receipt : Receipt} {id : String} :
    (t.delete receipt).Has id ↔ t.Has id ∧ ¬ (id = receipt.messageId ∧ t.Live receipt) := by
  unfold delete
  split
  · rename_i live
    simp only [Has, List.mem_filter, decide_eq_true_eq, live, and_true]
    constructor
    · rintro ⟨m, ⟨mem, other⟩, rfl⟩
      exact ⟨⟨m, mem, rfl⟩, other⟩
    · rintro ⟨⟨m, mem, rfl⟩, other⟩
      exact ⟨m, ⟨mem, other⟩, rfl⟩
  · rename_i stale
    simp [stale]

/-- A release takes effect through a live receipt. -/
theorem mem_release_held {t : Tray} {receipt : Receipt} {id : String} :
    id ∈ (t.release receipt).held ↔ id ∈ t.held ∧ ¬ (id = receipt.messageId ∧ t.Live receipt) := by
  unfold release
  split
  · rename_i live
    simp [live]
  · rename_i stale
    simp [stale]

end Tray

end Relay.Sqs
