import Relay.Erp.Tables
import Relay.Worker.Mapping

/-!
Where every accepted message is.

A message that a queue accepted is still on a queue, or its order is in the ERP
at its version or a newer one (`Applied`), or a message with the same body was
accepted after it (`Resent`). `Accounted` says so of every accepted message. A
message may leave its queue only once one of the last two holds of it, so each
call of a component keeps the invariant (`Accounted.push`, `.remove`, `.move`,
`.written`).

The last accepted message with a given body is not resent; it is the one that
answers for the body (`Accounted.body`).
-/

namespace Relay.Delivery

open Relay.Effect Relay.Platform Relay.Erp Relay.Worker Relay.Sqs

/-- The body maps to an order that the ERP stores at its version or a newer one. -/
def Applied (rt : Runtime) (erp : Dynamo.State Table) (body : String) : Prop :=
  ∃ order, orderOf rt body = .ok order ∧ StoredFrom erp order.orderId order.version

/-- A message with the same body was accepted after `m`. -/
def Resent (accepted : List (Queue × Message)) (m : Message) : Prop :=
  ∃ before q after, accepted = before ++ (q, m) :: after ∧ ∃ entry ∈ after, entry.2.body = m.body

/-- Nothing is lost with `m`. -/
def Resolved (rt : Runtime) (w : World) (m : Message) : Prop :=
  Applied rt w.erp m.body ∨ Resent w.sqs.accepted m

/-- A queue accepted `m`. -/
def Accepted (w : World) (m : Message) : Prop := ∃ q, (q, m) ∈ w.sqs.accepted

structure Accounted (rt : Runtime) (w : World) : Prop where
  kept : Kept w.erp
  wellFormed : WellFormed w.sqs
  each : ∀ m, Accepted w m → (∃ q, m ∈ w.sqs.queue q) ∨ Resolved rt w m

/-- Writes and accepted sends were only added. -/
structure Grows (w w' : World) : Prop where
  writes : Extends w.erp w'.erp
  sends : w.sqs.accepted <+: w'.sqs.accepted

theorem Grows.refl (w : World) : Grows w w := ⟨Extends.refl _, List.prefix_rfl⟩

theorem Grows.trans {u v w : World} (first : Grows u v) (second : Grows v w) : Grows u w :=
  ⟨first.writes.trans second.writes, first.sends.trans second.sends⟩

theorem Accepted.grows {w w' : World} {m : Message} (accepted : Accepted w m) (grows : Grows w w') :
    Accepted w' m := by
  obtain ⟨q, mem⟩ := accepted
  exact ⟨q, grows.sends.subset mem⟩

theorem Applied.extends {rt : Runtime} {s t : Dynamo.State Table} {body : String}
    (applied : Applied rt s body) (kept : Kept s) (more : Extends s t) : Applied rt t body := by
  obtain ⟨order, maps, stored⟩ := applied
  exact ⟨order, maps, stored.extends kept more⟩

theorem Resent.grows {accepted accepted' : List (Queue × Message)} {m : Message}
    (resent : Resent accepted m) (grows : accepted <+: accepted') : Resent accepted' m := by
  obtain ⟨before, q, after, rfl, entry, mem, same⟩ := resent
  obtain ⟨more, rfl⟩ := grows
  exact ⟨before, q, after ++ more, by simp, entry, List.mem_append_left _ mem, same⟩

/-- A message accepted after `m` with its body resends it. -/
theorem resent_of_append {accepted more : List (Queue × Message)} {q : Queue} {m : Message}
    (here : (q, m) ∈ accepted) {entry : Queue × Message} (mem : entry ∈ more)
    (same : entry.2.body = m.body) : Resent (accepted ++ more) m := by
  obtain ⟨before, after, rfl⟩ := List.append_of_mem here
  exact ⟨before, q, after ++ more, by simp, entry, List.mem_append_right _ mem, same⟩

theorem Resolved.grows {rt : Runtime} {w w' : World} {m : Message} (resolved : Resolved rt w m)
    (kept : Kept w.erp) (grows : Grows w w') : Resolved rt w' m := by
  rcases resolved with applied | resent
  · exact .inl (applied.extends kept grows.writes)
  · exact .inr (resent.grows grows.sends)

/-! ### One call -/

section Steps

variable {rt : Runtime} {w : World}

theorem Accounted.accepted (accounted : Accounted rt w) {q : Queue} {m : Message}
    (here : m ∈ w.sqs.queue q) : Accepted w m := accounted.wellFormed.queued q m here

/-- The ERP was written to. -/
theorem Accounted.written (accounted : Accounted rt w) {erp : Dynamo.State Table}
    (more : Extends w.erp erp) : Accounted rt { w with erp := erp } where
  kept := accounted.kept.extends more
  wellFormed := accounted.wellFormed
  each := fun m accepted => (accounted.each m accepted).imp_right fun resolved =>
    resolved.grows accounted.kept ⟨more, List.prefix_rfl⟩

/-- A new message was accepted. -/
theorem Accounted.push (accounted : Accounted rt w) {q : Queue} {m : Message}
    (fresh : ¬ w.sqs.Known m.messageId) : Accounted rt { w with sqs := w.sqs.push q m } where
  kept := accounted.kept
  wellFormed := accounted.wellFormed.push fresh
  each := by
    have grows : Grows w { w with sqs := w.sqs.push q m } :=
      ⟨Extends.refl _, List.prefix_append _ _⟩
    rintro m' ⟨q', mem⟩
    rcases List.mem_append.mp mem with mem | mem
    · rcases accounted.each m' ⟨q', mem⟩ with ⟨q'', here⟩ | resolved
      · exact .inl ⟨q'', mem_push.mpr (.inl here)⟩
      · exact .inr (resolved.grows accounted.kept grows)
    · obtain ⟨rfl, rfl⟩ : q' = q ∧ m' = m := by simpa using mem
      exact .inl ⟨q', mem_push.mpr (.inr ⟨rfl, rfl⟩)⟩

/-- A message that nothing is lost with was deleted. -/
theorem Accounted.remove (accounted : Accounted rt w) {q : Queue} {m : Message}
    (accepted : Accepted w m) (resolved : Resolved rt w m) :
    Accounted rt { w with sqs := w.sqs.remove q m.messageId } where
  kept := accounted.kept
  wellFormed := accounted.wellFormed.remove q m.messageId
  each := by
    intro m' accepted'
    by_cases same : m'.messageId = m.messageId
    · -- An id names one message.
      obtain ⟨q₁, mem⟩ := accepted
      obtain ⟨q₂, mem'⟩ := accepted'
      obtain rfl := accounted.wellFormed.unique mem' mem same
      exact .inr resolved
    · refine (accounted.each m' accepted').imp_left fun ⟨q', here⟩ => ?_
      exact ⟨q', mem_remove.mpr ⟨here, fun _ => same⟩⟩

/-- A message was moved as it is. -/
theorem Accounted.move (accounted : Accounted rt w) {q q' : Queue} (apart : q ≠ q') {m : Message}
    (here : m ∈ w.sqs.queue q) : Accounted rt { w with sqs := w.sqs.move q q' m } where
  kept := accounted.kept
  wellFormed := accounted.wellFormed.move apart here
  each := by
    intro m' accepted'
    refine (accounted.each m' accepted').imp_left fun ⟨q'', here'⟩ => ?_
    by_cases same : m'.messageId = m.messageId
    · obtain ⟨q₁, mem⟩ := accounted.accepted here
      obtain ⟨q₂, mem'⟩ := accepted'
      obtain rfl := accounted.wellFormed.unique mem' mem same
      exact ⟨q', (mem_move apart).mpr (.inr ⟨rfl, rfl⟩)⟩
    · exact ⟨q'', (mem_move apart).mpr (.inl ⟨here', fun _ => same⟩)⟩

/-- A send was answered. -/
theorem Accounted.sends (accounted : Accounted rt w) {q : Queue} {body : String}
    {attributes : List (String × String)} {reply : Except String Unit} {sqs : Sqs.State Queue}
    (answered : Sends q body attributes w.sqs reply sqs) :
    Accounted rt { w with sqs := sqs } ∧ Grows w { w with sqs := sqs } := by
  rcases answered.1 with rfl | ⟨m, -, -, fresh, rfl⟩
  · exact ⟨accounted, Grows.refl w⟩
  · exact ⟨accounted.push fresh, Extends.refl _, List.prefix_append _ _⟩

/-- A send of an accepted message's body that returned without an error. -/
theorem resent_of_sends {q : Queue} {attributes : List (String × String)} {m : Message}
    {sqs : Sqs.State Queue} (accepted : Accepted w m)
    (answered : Sends q m.body attributes w.sqs (.ok ()) sqs) : Resent sqs.accepted m := by
  obtain ⟨copy, same, -, -, rfl⟩ := answered.2 rfl
  obtain ⟨q', mem⟩ := accepted
  exact resent_of_append mem (List.mem_singleton.mpr rfl) same

/-- Deletes of messages that nothing is lost with were answered. -/
theorem Accounted.deletesBatch {q : Queue} {receipts : List Receipt} {s sqs : Sqs.State Queue}
    (deleted : DeletesBatch q receipts s sqs) :
    ∀ {w : World}, w.sqs = s → Accounted rt w →
      (∀ receipt ∈ receipts, ∃ m, m.messageId = receipt.messageId ∧ Accepted w m ∧ Resolved rt w m) →
      Accounted rt { w with sqs := sqs } ∧ Grows w { w with sqs := sqs } := by
  induction deleted with
  | nil =>
      rintro w rfl accounted -
      exact ⟨accounted, Grows.refl w⟩
  | @cons receipt rest s s₁ s₂ first _ ih =>
      rintro w rfl accounted resolved
      obtain ⟨m, same, accepted, settled⟩ := resolved receipt List.mem_cons_self
      rcases first with rfl | rfl
      · exact ih rfl accounted fun r mem => resolved r (List.mem_cons_of_mem _ mem)
      · have grows : Grows w { w with sqs := w.sqs.remove q m.messageId } :=
          ⟨Extends.refl _, List.prefix_rfl⟩
        rw [← same] at ih
        have after := ih (w := { w with sqs := w.sqs.remove q m.messageId }) rfl
          (accounted.remove accepted settled) fun r mem => by
            obtain ⟨m', same', accepted', settled'⟩ := resolved r (List.mem_cons_of_mem _ mem)
            exact ⟨m', same', accepted'.grows grows, settled'.grows accounted.kept grows⟩
        exact ⟨after.1, grows.trans after.2⟩

/-- What resends a message comes after its one place among the accepted sends. -/
theorem Accounted.resent_later (accounted : Accounted rt w) {before after : List (Queue × Message)}
    {entry : Queue × Message} (split : w.sqs.accepted = before ++ entry :: after)
    (resent : Resent w.sqs.accepted entry.2) : ∃ later ∈ after, later.2.body = entry.2.body := by
  obtain ⟨before', q, after', split', later, mem, same⟩ := resent
  have ids := accounted.wellFormed.ids
  rw [split, List.map_append, List.map_cons, List.nodup_append, List.nodup_cons] at ids
  obtain ⟨-, ⟨notAfter, -⟩, apart⟩ := ids
  have inBefore : (q, entry.2) ∉ before := fun mem =>
    apart _ (List.mem_map_of_mem mem) _ List.mem_cons_self rfl
  have inAfter : (q, entry.2) ∉ after := fun mem => notAfter (List.mem_map.mpr ⟨_, mem, rfl⟩)
  rw [split] at split'
  obtain ⟨-, -, rfl⟩ := (List.append_cons_inj_of_notMem inBefore inAfter).mp split'
  exact ⟨later, mem, same⟩

/-- A body that was ever accepted is on a queue, or applied. -/
theorem Accounted.body (accounted : Accounted rt w) {m : Message} (accepted : Accepted w m) :
    (∃ q, ∃ m' ∈ w.sqs.queue q, m'.body = m.body) ∨ Applied rt w.erp m.body := by
  obtain ⟨q, mem⟩ := accepted
  suffices search : ∀ after before, w.sqs.accepted = before ++ after →
      (∃ entry ∈ after, entry.2.body = m.body) →
      (∃ q, ∃ m' ∈ w.sqs.queue q, m'.body = m.body) ∨ Applied rt w.erp m.body from
    search w.sqs.accepted [] rfl ⟨_, mem, rfl⟩
  -- The last accepted message with this body was not resent.
  intro after
  induction after with
  | nil => rintro before - ⟨entry, mem, -⟩; cases mem
  | cons head rest ih =>
      rintro before split ⟨entry, mem, same⟩
      by_cases later : ∃ entry ∈ rest, entry.2.body = m.body
      · exact ih (before ++ [head]) (by rw [split]; simp) later
      · obtain rfl : entry = head := by
          rcases List.mem_cons.mp mem with same' | mem
          · exact same'
          · exact absurd ⟨entry, mem, same⟩ later
        have here : Accepted w entry.2 := ⟨entry.1, by rw [split]; simp⟩
        rcases accounted.each entry.2 here with ⟨q', queued⟩ | applied | resent
        · exact .inl ⟨q', entry.2, queued, same⟩
        · rw [same] at applied
          exact .inr applied
        · exact absurd (accounted.resent_later split resent) (by rwa [same])

end Steps

end Relay.Delivery
