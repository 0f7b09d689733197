import Relay.Relayctl.Desk

/-!
What `ack` deletes.

A missing attribute reads as the empty text, so the empty id matches every message
without an event key. `ack_exact_iff` says that this is the only id and these are the
only messages for which a message is deleted that the id does not name.
-/

namespace Relay.Relayctl

open Relay.Platform Relay.Effect Relay.Sqs Relation

/-- The id is the message's own or that of the event key it carries. -/
def Names (id : String) (m : Message) : Prop :=
  m.messageId = id ∨ m.attribute? "event_key" = some id

/-- Only what the id names is deleted, all else is visible again, and what is returned is
what was deleted. -/
structure AckExact (id : String) (q : Desk) (calls : List (Exchange Request.Answer))
    (acked : List DeadLetter) (q' : Desk) : Prop where
  named : ∀ m ∈ q.dlq.stored, m ∉ q'.dlq.stored → Names id m
  deleted : q'.dlq.stored = q.dlq.stored.filter (·.messageId ∉ acked.map DeadLetter.messageId)
  returned : acked.Nodup ∧ ∀ m ∈ acked, ∃ r ∈ received calls, m = toDeadLetter r
  kept : ∀ r ∈ received calls, r.id ∉ acked.map DeadLetter.messageId → q'.dlq.Visible r.message
  main : q'.main = q.main

/-- The loop deletes some of the messages that match, and releases the others. -/
theorem ackLoop_traced {id : String} {acked keep msgs acked' : List DeadLetter} {q q' : Desk}
    {calls : List (Exchange Request.Answer)}
    (receipts : ∀ m ∈ keep ++ msgs, m.receipt.messageId = m.messageId)
    (run : Commands (ackLoop id acked keep msgs) q calls acked' q') :
    ∃ more others, acked' = acked ++ more ∧ msgs.Perm (more ++ others) ∧
      (∀ m ∈ more, m.messageId = id ∨ m.eventKey = id) ∧ received calls = [] ∧
      q' = q.leave more (keep ++ others) := by
  induction msgs generalizing acked keep q calls with
  | nil =>
      rw [List.append_nil] at receipts
      obtain ⟨done, q₁, before, after, rfl, released, run⟩ := Traced.of_bind run
      obtain ⟨rfl, rfl, rfl⟩ := Traced.of_ret run
      obtain ⟨same, none_⟩ := release_traced receipts released
      refine ⟨[], [], (List.append_nil _).symm, .nil, by simp, ?_, ?_⟩
      · rwa [List.append_nil]
      · rw [same, List.append_nil]
  | cons m rest ih =>
      -- A message that is kept is released at the end.
      have keeps : ∀ {q calls}, Commands (ackLoop id acked (keep ++ [m]) rest) q calls acked' q' →
          ∃ more others, acked' = acked ++ more ∧ (m :: rest).Perm (more ++ others) ∧
            (∀ m ∈ more, m.messageId = id ∨ m.eventKey = id) ∧ received calls = [] ∧
            q' = q.leave more (keep ++ others) := by
        intro q calls run
        obtain ⟨more, others, same, perm, matching, none_, left⟩ := ih (by simpa using receipts) run
        refine ⟨more, m :: others, same, (perm.cons m).trans List.perm_middle.symm, matching, none_, ?_⟩
        rw [left, List.append_assoc, List.singleton_append]
      rw [ackLoop] at run
      split at run
      · exact keeps run
      · rename_i matched
        obtain ⟨q₁, reply, q₂, later, rfl, moves, answered, run⟩ := Traced.of_perform_bind run
        obtain rfl := alone_star moves
        cases reply with
        | error message =>
            obtain rfl : q = q₂ := Eq.symm answered
            obtain ⟨more, others, same, perm, matching, none_, left⟩ := keeps run
            exact ⟨more, others, same, perm, matching, none_, left⟩
        | ok done =>
            obtain rfl : q₂ = q.drop m.receipt.messageId := answered
            obtain ⟨more, others, same, perm, matching, none_, left⟩ := ih (fun m' mem => by
              apply receipts
              rcases List.mem_append.mp mem with mem | mem
              · exact List.mem_append_left _ mem
              · exact List.mem_append_right _ (List.mem_cons_of_mem _ mem)) run
            refine ⟨m :: more, others, ?_, perm.cons m, ?_, none_, ?_⟩
            · rw [same, List.append_assoc]
              rfl
            · intro m' mem
              rcases List.mem_cons.mp mem with rfl | mem
              · by_contra other
                exact matched (not_or.mp other)
              · exact matching m' mem
            · rw [left, Desk.leave_cons, receipts m (List.mem_append_right _ List.mem_cons_self)]

/-- A run of `ack` that ends deletes some of what it received and matches, and releases the
rest. -/
theorem ack_traced {fuel : Nat} {id : String} {q q' : Desk} {calls : List (Exchange Request.Answer)}
    {acked : List DeadLetter} {err : Option String}
    (run : Commands (ack fuel id) q calls (some (acked, err)) q') :
    q.dlq.Batch (received calls) ∧ ∃ others,
      ((received calls).map toDeadLetter).Perm (acked ++ others) ∧
      (∀ m ∈ acked, m.messageId = id ∨ m.eventKey = id) ∧
      q' = ({ q with dlq := q.dlq.hold (received calls) } : Desk).leave acked others := by
  unfold ack at run
  obtain ⟨peeked, q₁, before, after, rfl, peeking, run⟩ := Traced.of_bind run
  cases peeked with
  | none =>
      obtain ⟨-, done, -⟩ := Traced.of_ret run
      cases done
  | some peeked =>
      obtain ⟨msgs, failure⟩ := peeked
      obtain ⟨batch, same, perm⟩ := peekLoop_traced (by simp) peeking
      rw [List.nil_append] at perm
      have receipts : ∀ m ∈ msgs, m.receipt.messageId = m.messageId := by
        intro m mem
        obtain ⟨r, here, rfl⟩ := List.mem_map.mp (perm.subset mem)
        exact batch.receipts r here
      cases failure with
      | some message =>
          obtain ⟨done, q₂, releasing, last, rfl, released, run⟩ := Traced.of_bind run
          obtain ⟨rfl, ended, rfl⟩ := Traced.of_ret run
          cases ended
          obtain ⟨left, none_⟩ := release_traced receipts released
          have all : received (before ++ (releasing ++ [])) = received before := by
            rw [received_append, List.append_nil, none_, List.append_nil]
          rw [all]
          exact ⟨batch, msgs, perm.symm, by simp, by rw [left, same]⟩
      | none =>
          obtain ⟨acked', q₂, deleting, last, rfl, looped, run⟩ := Traced.of_bind run
          obtain ⟨rfl, ended, rfl⟩ := Traced.of_ret run
          cases ended
          obtain ⟨more, others, rfl, perm', matching, none_, left⟩ :=
            ackLoop_traced (by simpa using receipts) looped
          have all : received (before ++ (deleting ++ [])) = received before := by
            rw [received_append, List.append_nil, none_, List.append_nil]
          rw [all]
          exact ⟨batch, others, perm.symm.trans perm', matching, by rw [left, same]; rfl⟩

/-- Every run that ends is exact, whichever of its calls fail. -/
def AcksExactly (id : String) (q : Desk) : Prop :=
  ∀ fuel calls acked err q', Commands (ack fuel id) q calls (some (acked, err)) q' →
    AckExact id q calls acked q'

/-! ### The empty id -/

/-- Either the id is not empty or every visible message carries an event key. -/
def Keyed (id : String) (q : Desk) : Prop :=
  id = "" → ∀ m, q.dlq.Visible m → m.attribute? "event_key" = none → m.messageId = ""

theorem names_of_matches {q : Desk} {id : String} (keyed : Keyed id q) {r : Received}
    (visible : q.dlq.Visible r.message)
    (matched : (toDeadLetter r).messageId = id ∨ (toDeadLetter r).eventKey = id) : Names id r.message := by
  rcases matched with own | key
  · exact .inl own
  · have key : (r.message.attribute? "event_key").getD "" = id := key
    cases present : r.message.attribute? "event_key" with
    | some value =>
        rw [present] at key
        exact .inr (by rw [present]; exact congrArg some key)
    | none =>
        rw [present] at key
        exact .inl ((keyed key.symm r.message visible present).trans key)

theorem ackExact_of_keyed {q q' : Desk} {id : String} (keyed : Keyed id q)
    (distinct : (q.dlq.stored.map Message.messageId).Nodup) {fuel : Nat}
    {calls : List (Exchange Request.Answer)} {acked : List DeadLetter} {err : Option String}
    (run : Commands (ack fuel id) q calls (some (acked, err)) q') : AckExact id q calls acked q' := by
  obtain ⟨batch, others, perm, matching, rfl⟩ := ack_traced run
  have from_ : ∀ d ∈ acked ++ others, ∃ r ∈ received calls, d = toDeadLetter r := by
    intro d mem
    obtain ⟨r, here, rfl⟩ := List.mem_map.mp (perm.symm.subset mem)
    exact ⟨r, here, rfl⟩
  have ids : ((acked ++ others).map DeadLetter.messageId).Nodup := by
    rw [← (perm.map DeadLetter.messageId).nodup_iff, map_toDeadLetter_id]
    exact batch.distinct
  constructor
  · intro m stored gone
    have taken : m.messageId ∈ acked.map DeadLetter.messageId := by
      by_contra left
      exact gone (Desk.mem_leave.mpr ⟨stored, left⟩)
    obtain ⟨d, mem, same⟩ := List.mem_map.mp taken
    obtain ⟨r, here, rfl⟩ := from_ d (List.mem_append_left _ mem)
    have visible := batch.visible r here
    obtain rfl : r.message = m := List.inj_on_of_nodup_map distinct visible.1 stored same
    exact names_of_matches keyed visible (matching _ mem)
  · rfl
  · constructor
    · exact (List.nodup_append.mp ids.of_map).1
    · exact fun d mem => from_ d (List.mem_append_left _ mem)
  · intro r here left
    have visible := batch.visible r here
    refine ⟨Desk.mem_leave.mpr ⟨visible.1, left⟩, fun held => ?_⟩
    obtain ⟨-, -, unreleased⟩ := Desk.held_leave.mp held
    rcases List.mem_append.mp (perm.subset (List.mem_map_of_mem here)) with mem | mem
    · exact left (List.mem_map_of_mem mem)
    · exact unreleased (List.mem_map_of_mem mem)
  · rfl

/-- The first receive returns one message, and two more return none. -/
theorem ack_empty_run {q : Desk} {m : Message} (visible : q.dlq.Visible m)
    (keyless : m.attribute? "event_key" = none) :
    ∃ calls acked q', Commands (ack 4 "") q calls (some (acked, none)) q' ∧ m ∉ q'.dlq.stored := by
  let r : Received := ⟨m, ⟨m.messageId, 0⟩, none⟩
  have batch : q.dlq.Batch [r] := by
    constructor
    · intro r' mem
      obtain rfl := List.mem_singleton.mp mem
      exact visible
    · intro r' mem
      obtain rfl := List.mem_singleton.mp mem
      rfl
    · simp
  let q₁ : Desk := { q with dlq := q.dlq.hold [r] }
  have first : Desk.Answers (.receiveMessage .deadLetters 10) q (.ok [r]) q₁ :=
    ⟨_, ⟨by simp, batch, rfl⟩, rfl⟩
  have none_ : Desk.Answers (.receiveMessage .deadLetters 10) q₁ (.ok []) q₁ :=
    ⟨_, ⟨by simp, Shelf.batch_nil _, (Shelf.hold_nil _).symm⟩, rfl⟩
  have peeked : Commands (peek 4 1000) q
      [⟨.receiveMessage .deadLetters 10, .ok [r]⟩, ⟨.receiveMessage .deadLetters 10, .ok []⟩,
        ⟨.receiveMessage .deadLetters 10, .ok []⟩] (some ([toDeadLetter r], none)) q₁ :=
    .call .refl first (.call .refl none_ (.call .refl none_ .ret))
  have matched : ¬ ((toDeadLetter r).messageId ≠ "" ∧ (toDeadLetter r).eventKey ≠ "") := by
    rintro ⟨-, key⟩
    exact key (by simp [toDeadLetter, attr, r, keyless])
  have deleted : Commands (ackLoop "" [] [] [toDeadLetter r]) q₁
      [⟨.deleteMessage .deadLetters ⟨m.messageId, 0⟩, .ok ()⟩] [toDeadLetter r] (q₁.drop m.messageId) := by
    rw [ackLoop, if_neg matched]
    exact .call .refl rfl .ret
  refine ⟨_, [toDeadLetter r], q₁.drop m.messageId, peeked.bind (deleted.bind .ret), ?_⟩
  simp [Desk.drop, Shelf.remove]

/-- For every DLQ and every id, every run of `ack` deletes only what the id names and keeps
the rest if and only if the id is not empty or every visible message carries an event key. -/
theorem ack_exact_iff {q : Desk} (distinct : (q.dlq.stored.map Message.messageId).Nodup) (id : String) :
    AcksExactly id q ↔ Keyed id q := by
  constructor
  · rintro exact_ rfl m visible keyless
    obtain ⟨calls, acked, q', run, gone⟩ := ack_empty_run visible keyless
    rcases (exact_ 4 calls acked none q' run).named m visible.1 gone with own | key
    · exact own
    · rw [keyless] at key
      cases key
  · intro keyed fuel calls acked err q' run
    exact ackExact_of_keyed keyed distinct run

/-- A DLQ with one message without attributes. -/
def strayDesk : Desk := ⟨[], ⟨[⟨"m1", "not an event", [], 0⟩], []⟩⟩

/-- An id that is not empty deletes nothing there but the message it names. -/
theorem ack_exact_m1 : AcksExactly "m1" strayDesk :=
  (ack_exact_iff (by simp [strayDesk]) "m1").mpr (fun empty => by simp at empty)

/-- The empty id deletes it. -/
theorem ack_empty_deletes_stray : ∃ calls acked q',
    Commands (ack 4 "") strayDesk calls (some (acked, none)) q' ∧ ¬ AckExact "" strayDesk calls acked q' := by
  have visible : strayDesk.dlq.Visible ⟨"m1", "not an event", [], 0⟩ := by
    simp [Shelf.Visible, strayDesk]
  obtain ⟨calls, acked, q', run, gone⟩ := ack_empty_run visible rfl
  refine ⟨calls, acked, q', run, fun exact_ => ?_⟩
  rcases exact_.named _ visible.1 gone with own | key
  · simp at own
  · cases key

end Relay.Relayctl
