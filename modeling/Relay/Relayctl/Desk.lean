import Relay.Effect.Trace
import Relay.Relayctl.Dlq
import Relay.Sqs.Shelf

/-!
The operator's commands on their own.

A `Desk` is the main queue and the dead-letter queue while one command runs: no
hold expires, a failed call has no effect and a release succeeds. `peekLoop_traced`
and `release_traced` say what the two ends of every command do to it.
-/

namespace Relay.Relayctl

open Relay.Platform Relay.Effect Relay.Sqs Relation

structure Desk where
  /-- The bodies and attributes on the main queue. -/
  main : List (String × List (String × String))
  dlq : Shelf

/-- What a call may see, and how it may leave the queues. -/
def Desk.Answers : (request : Request) → Desk → request.Answer → Desk → Prop
  | .receiveMessage .deadLetters max, q, reply, q' => ∃ dlq, q.dlq.Receives max reply dlq ∧ q' = { q with dlq := dlq }
  | .sendMessage .main body attributes, q, reply, q' =>
      match reply with
      | .error _ => q' = q
      | .ok () => q' = { q with main := q.main ++ [(body, attributes)] }
  | .deleteMessage .deadLetters receipt, q, reply, q' =>
      match reply with
      | .error _ => q' = q
      | .ok () => q' = { q with dlq := q.dlq.remove receipt.messageId }
  | .changeMessageVisibility .deadLetters receipt _, q, reply, q' =>
      reply = .ok () ∧ q' = { q with dlq := q.dlq.release receipt.messageId }
  | _, q, _, q' => q' = q

/-- Nothing else happens to the queues. -/
def Alone (_ _ : Desk) : Prop := False

/-- A command's run: its calls, what it returned and what it left. -/
abbrev Commands {α : Type} (program : Act α) (q : Desk) (calls : List (Exchange Request.Answer)) (result : α)
    (q' : Desk) : Prop := Traced Desk.Answers Alone program q calls result q'

theorem alone_star {q q' : Desk} (moves : ReflTransGen Alone q q') : q = q' := by
  induction moves with
  | refl => rfl
  | tail _ move _ => exact move.elim

/-- The messages that a call returned. -/
def receivedBy : Exchange Request.Answer → List Received
  | ⟨.receiveMessage _ _, .ok batch⟩ => batch
  | _ => []

/-- The messages that the receives of a run returned. -/
def received (calls : List (Exchange Request.Answer)) : List Received := calls.flatMap receivedBy

theorem received_append (first rest : List (Exchange Request.Answer)) :
    received (first ++ rest) = received first ++ received rest := List.flatMap_append

/-! ### Receiving -/

/-- No message of a batch was seen before. -/
theorem collect_fresh {out : List DeadLetter} {batch : List Received}
    (fresh : ∀ r ∈ batch, r.id ∉ out.map DeadLetter.messageId) (distinct : (batch.map Received.id).Nodup) :
    collect out batch = out ++ batch.map toDeadLetter := by
  induction batch generalizing out with
  | nil => simp [collect]
  | cons r rest ih =>
      obtain ⟨own, others⟩ := List.nodup_cons.mp distinct
      have unseen : r.message.messageId ∉ out.map DeadLetter.messageId := fresh r List.mem_cons_self
      rw [collect, if_neg unseen, ih ?_ others, List.append_assoc]
      · rfl
      · intro r' mem
        rw [List.map_append, List.mem_append, not_or]
        refine ⟨fresh r' (List.mem_cons_of_mem _ mem), fun same => own ?_⟩
        have same : r'.id = r.id := List.mem_singleton.mp same
        rw [← same]
        exact List.mem_map_of_mem mem

theorem map_toDeadLetter_id (batch : List Received) :
    (batch.map toDeadLetter).map DeadLetter.messageId = batch.map Received.id := by
  rw [List.map_map]
  rfl

/-- What the receive loop does, from the messages that it holds already. -/
theorem peekLoop_traced {limit fuel empty : Nat} {out msgs : List DeadLetter} {err : Option String}
    {q q' : Desk} {calls : List (Exchange Request.Answer)}
    (held : ∀ id ∈ out.map DeadLetter.messageId, id ∈ q.dlq.held)
    (run : Commands (peekLoop limit fuel empty out) q calls (some (msgs, err)) q') :
    q.dlq.Batch (received calls) ∧ q' = { q with dlq := q.dlq.hold (received calls) } ∧
      msgs.Perm (out ++ (received calls).map toDeadLetter) := by
  induction fuel generalizing empty out q calls with
  | zero =>
      obtain ⟨-, done, -⟩ := Traced.of_ret run
      cases done
  | succ fuel ih =>
      rw [peekLoop] at run
      split at run
      · obtain ⟨q₁, reply, q₂, later, rfl, moves, ⟨dlq, answered, rfl⟩, run⟩ := Traced.of_perform_bind run
        obtain rfl := alone_star moves
        cases reply with
        | error message =>
            obtain ⟨rfl, done, rfl⟩ := Traced.of_ret run
            cases done
            obtain rfl : dlq = q.dlq := answered
            exact ⟨Shelf.batch_nil _, by simp [received, receivedBy, Shelf.hold_nil],
              by simp [received, receivedBy]⟩
        | ok batch =>
            obtain ⟨-, fresh, rfl⟩ := answered
            have held' : ∀ id ∈ out.map DeadLetter.messageId, id ∈ (q.dlq.hold batch).held :=
              fun id mem => List.mem_append_left _ (held id mem)
            have more : received (⟨.receiveMessage .deadLetters 10, .ok batch⟩ :: later) =
                batch ++ received later := rfl
            rw [more, Shelf.hold_append]
            cases batch with
            | nil =>
                rw [Shelf.hold_nil] at run ⊢
                rw [List.nil_append]
                exact ih held run
            | cons first rest =>
                have collected : collect out (first :: rest) = out ++ (first :: rest).map toDeadLetter := by
                  refine collect_fresh (fun r mem seen => ?_) fresh.distinct
                  exact (fresh.visible r mem).2 (held _ seen)
                dsimp only at run
                rw [collected] at run
                obtain ⟨others, same, perm⟩ := ih (fun id mem => by
                  rw [List.map_append, List.mem_append, map_toDeadLetter_id] at mem
                  rcases mem with mem | mem
                  · exact held' id mem
                  · exact List.mem_append_right _ mem) run
                refine ⟨fresh.append others, same, ?_⟩
                rwa [List.map_append, ← List.append_assoc]
      · obtain ⟨rfl, done, rfl⟩ := Traced.of_ret run
        cases done
        refine ⟨Shelf.batch_nil _, by simp [received, Shelf.hold_nil], ?_⟩
        simpa [received] using List.perm_insertionSort _ out

/-- The receive loop ends: it sees each message once, and two empty receives. -/
theorem peekLoop_returns {limit fuel empty : Nat} {out : List DeadLetter} {q q' : Desk}
    {calls : List (Exchange Request.Answer)} {result : Option (List DeadLetter × Option String)}
    (few : empty ≤ 2) (enough : q.dlq.free.length + 2 < fuel + empty)
    (run : Commands (peekLoop limit fuel empty out) q calls result q') : result ≠ none := by
  induction fuel generalizing empty out q calls with
  | zero => omega
  | succ fuel ih =>
      rw [peekLoop] at run
      split at run
      · rename_i going
        obtain ⟨q₁, reply, q₂, later, rfl, moves, ⟨dlq, answered, rfl⟩, run⟩ := Traced.of_perform_bind run
        obtain rfl := alone_star moves
        cases reply with
        | error message =>
            obtain ⟨-, rfl, -⟩ := Traced.of_ret run
            simp
        | ok batch =>
            obtain ⟨-, fresh, rfl⟩ := answered
            cases batch with
            | nil =>
                rw [Shelf.hold_nil] at run
                exact ih (by omega) (by dsimp only; omega) run
            | cons first rest =>
                have fewer := Shelf.free_hold fresh (by simp)
                exact ih few (by dsimp only; omega) run
      · obtain ⟨-, rfl, -⟩ := Traced.of_ret run
        simp

/-! ### Releasing -/

/-- The queues once some messages are gone and others are visible again. -/
def Desk.leave (q : Desk) (gone back : List DeadLetter) : Desk where
  main := q.main
  dlq := (q.dlq.removeAll (gone.map DeadLetter.messageId)).releaseAll (back.map DeadLetter.messageId)

/-- The same queues, one message less on the dead-letter queue. -/
def Desk.drop (q : Desk) (messageId : String) : Desk := { q with dlq := q.dlq.remove messageId }

theorem Desk.leave_cons (q : Desk) (m : DeadLetter) (gone back : List DeadLetter) :
    q.leave (m :: gone) back = (q.drop m.messageId).leave gone back := by
  rw [Desk.leave, List.map_cons, Shelf.removeAll_cons]
  rfl

theorem Desk.mem_leave {q : Desk} {gone back : List DeadLetter} {m : Message} :
    m ∈ (q.leave gone back).dlq.stored ↔
      m ∈ q.dlq.stored ∧ m.messageId ∉ gone.map DeadLetter.messageId := by
  simp [Desk.leave, Shelf.removeAll, Shelf.releaseAll]

theorem Desk.held_leave {q : Desk} {gone back : List DeadLetter} {id : String} :
    id ∈ (q.leave gone back).dlq.held ↔ id ∈ q.dlq.held ∧
      id ∉ gone.map DeadLetter.messageId ∧ id ∉ back.map DeadLetter.messageId := by
  rw [Desk.leave, Shelf.removeAll, Shelf.releaseAll, List.mem_filter, List.mem_filter, and_assoc]
  simp

theorem release_traced {msgs : List DeadLetter} {q q' : Desk} {calls : List (Exchange Request.Answer)}
    (receipts : ∀ m ∈ msgs, m.receipt.messageId = m.messageId)
    (run : Commands (release msgs) q calls () q') :
    q' = q.leave [] msgs ∧ received calls = [] := by
  induction msgs generalizing q calls with
  | nil =>
      obtain ⟨rfl, -, rfl⟩ := Traced.of_ret run
      refine ⟨?_, rfl⟩
      rw [Desk.leave, List.map_nil, Shelf.removeAll_nil, Shelf.releaseAll_nil]
  | cons m rest ih =>
      rw [release] at run
      obtain ⟨q₁, reply, q₂, later, rfl, moves, ⟨-, rfl⟩, run⟩ := Traced.of_perform_bind run
      obtain rfl := alone_star moves
      obtain ⟨same, none_⟩ := ih (fun m' mem => receipts m' (List.mem_cons_of_mem _ mem)) run
      refine ⟨?_, none_⟩
      rw [same, Desk.leave, Desk.leave, List.map_nil, Shelf.removeAll_nil, Shelf.removeAll_nil, List.map_cons,
        Shelf.releaseAll_cons, receipts m List.mem_cons_self]

end Relay.Relayctl
