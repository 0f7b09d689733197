import Relay.Platform.World
import Relay.Worker.Script

/-!
Services that work.

`Faultless` says of one call that it did not fail: a transaction commits unless a
condition is false, a receive returns something of a queue that is not empty, sends
are accepted, deletes take effect, no chaos flag is set, and the invocation has time
left. `Serves` are the answers of services that work. Every call has one
(`exists_serves`), so every program has a run (`exists_run_of_serves`).
-/

namespace Relay.Delivery

open Relay.Effect Relay.Platform Relay.Python Relay.Worker Relay.Sqs

/-- Chaos flags that stop nothing. -/
structure Calm (chaos : Chaos) : Prop where
  passes : Chaos.isPositive chaos.erpFailRate = false
  runs : chaos.crashAfter ≤ 0

def Faultless (settings : Settings) : (request : Request) → World → request.Answer → World → Prop
  | .transactWriteItems items, w, reply, _ =>
      ∃ returns, reply = if (w.erp.db.transact items).isSome then .ok ()
        else .error (.client (cancellation returns items w.erp.db))
  | .getItem _ _, _, reply, _ => ∃ item, reply = .ok item
  | .receiveMessage queue _, w, reply, _ =>
      ∃ batch, reply = .ok batch ∧ (w.sqs.queue queue ≠ [] → batch ≠ [])
  | .sendMessage _ _ _, _, reply, _ => reply = .ok ()
  | .sendMessageBatch _ _, _, reply, _ => ∃ out, reply = .ok out ∧ out.failed = []
  | .deleteMessageBatch queue receipts, _, _, w' =>
      ∀ receipt ∈ receipts, ∀ m ∈ w'.sqs.queue queue, m.messageId ≠ receipt.messageId
  | .getParameters _, _, reply, _ =>
      ∀ params, reply = .ok params → ∃ chaos, Chaos.ofParameters params = .ok chaos ∧ Calm chaos
  | .getParameter _, _, reply, _ => ∀ message, reply ≠ .error (.other message)
  | .putParameter _ _, _, reply, _ => reply = .ok ()
  | .serverTime, _, reply, _ => ∃ now, reply = .ok now
  -- A query without an answer is one whose literals are no datetimes.
  | .queryAll soql, w, reply, _ => ∀ rows, soql.Selects w.org rows → ∃ rows, reply = .ok rows
  | .remainingTime, _, reply, _ => ∀ remaining, reply = some remaining → settings.timeGuardMs ≤ remaining
  | _, _, _, _ => True

/-- The answers of services that work. -/
def Serves (S : Services) (settings : Settings) (request : Request) (w : World)
    (reply : request.Answer) (w' : World) : Prop :=
  S.Answers request w reply w' ∧ Faultless settings request w reply w'

/-! ### Every call has an answer -/

theorem truthful_cancellation (returns : Bool) (items : List (Dynamo.Update Erp.Table))
    (db : Dynamo.Db Erp.Table) : Dynamo.Truthful items (cancellation returns items db) db := by
  intro i u cancelled here listed named
  rw [cancellation, List.getElem?_map, here] at listed
  obtain rfl := Option.some.inj listed
  unfold Worker.reason at named ⊢
  split at named
  · split at named <;> exact absurd named (by decide)
  · rename_i failed
    rw [if_neg failed]
    refine ⟨by simpa using failed, fun item returned => ?_⟩
    cases returns with
    | true => exact returned
    | false => cases returned

/-- Deletes that all take effect. -/
theorem exists_deletesBatch (q : Queue) (receipts : List Receipt) (s : Sqs.State Queue) :
    ∃ s', DeletesBatch q receipts s s' ∧
      ∀ receipt ∈ receipts, ∀ m ∈ s'.queue q, m.messageId ≠ receipt.messageId := by
  induction receipts generalizing s with
  | nil => exact ⟨s, .nil, by simp⟩
  | cons receipt rest ih =>
      obtain ⟨s', deleted, gone⟩ := ih (s.remove q receipt.messageId)
      refine ⟨s', .cons (.inr rfl) deleted, fun receipt' mem m here => ?_⟩
      rcases List.mem_cons.mp mem with rfl | mem
      · exact (mem_remove.mp (deleted.shrinks.2.2 q m here)).2 rfl
      · exact gone receipt' mem m here

theorem exists_serves (S : Services) (settings : Settings) (request : Request) (w : World) :
    ∃ reply w', Serves S settings request w reply w' := by
  cases request with
  | transactWriteItems items =>
      cases committed : w.erp.db.transact items with
      | some db =>
          refine ⟨.ok (), { w with erp := ⟨db, w.erp.log ++ [items]⟩ },
            ⟨_, ⟨.inr ⟨committed, rfl⟩, committed, rfl⟩, rfl⟩, true, ?_⟩
          rw [committed]
          rfl
      | none =>
          refine ⟨.error (.client (cancellation true items w.erp.db)), w,
            ⟨w.erp, ⟨.inl rfl, truthful_cancellation true items w.erp.db⟩, rfl⟩, true, ?_⟩
          rw [committed]
          rfl
  | getItem table key =>
      exact ⟨.ok (w.erp.db table key), w, ⟨rfl, fun _ same => (Except.ok.inj same).symm⟩, _, rfl⟩
  | scan table start =>
      exact ⟨.error (.other "Timeout" ""), w, ⟨rfl, fun _ ok => nomatch ok⟩, trivial⟩
  | receiveMessage queue most =>
      cases here : w.sqs.queue queue with
      | nil =>
          refine ⟨.ok [], w, ⟨w.sqs, ⟨rfl, ?_⟩, rfl⟩, [], rfl, fun some_ => absurd here some_⟩
          rintro batch ⟨⟩
          exact ⟨by simp, by simp⟩
      | cons m rest =>
          refine ⟨.ok [⟨m, ⟨m.messageId, 0⟩, none⟩], w, ⟨w.sqs, ⟨rfl, ?_⟩, rfl⟩, _, rfl, by simp⟩
          rintro batch ⟨⟩
          refine ⟨by simp, fun r mem => ?_⟩
          obtain rfl := List.mem_singleton.mp mem
          exact ⟨by rw [here]; exact List.mem_cons_self, rfl⟩
  | sendMessage queue body attributes =>
      obtain ⟨sqs, sent⟩ := exists_sent queue body attributes w.sqs
      exact ⟨.ok (), { w with sqs := sqs }, ⟨sqs, ⟨.inr sent, fun _ => sent⟩, rfl⟩, rfl⟩
  | sendMessageBatch queue entries =>
      obtain ⟨sqs, sent⟩ := exists_sentAll queue entries w.sqs
      refine ⟨.ok ⟨entries.map Entry.id, []⟩, { w with sqs := sqs },
        ⟨sqs, ⟨entries, List.Sublist.refl _, sent, ?_⟩, rfl⟩, _, rfl, rfl⟩
      rintro out ⟨⟩
      refine ⟨(List.filter_eq_self.mpr fun entry _ => ?_).symm, rfl⟩
      simp [BatchReply.accepts]
  | deleteMessage queue receipt => exact ⟨.ok (), w, ⟨w.sqs, .inl rfl, rfl⟩, trivial⟩
  | deleteMessageBatch queue receipts =>
      obtain ⟨sqs, deleted, gone⟩ := exists_deletesBatch queue receipts w.sqs
      exact ⟨.ok (), { w with sqs := sqs }, ⟨sqs, deleted, rfl⟩, gone⟩
  | changeMessageVisibility queue receipt seconds => exact ⟨.ok (), w, rfl, trivial⟩
  | getParameter name =>
      cases value : w.parameters name with
      | some text => exact ⟨.ok text, w, ⟨rfl, value⟩, nofun⟩
      | none => exact ⟨.error .notFound, w, ⟨rfl, value⟩, nofun⟩
  | getParameters names => exact ⟨.error "", w, rfl, fun _ ok => nomatch ok⟩
  | putParameter name value => exact ⟨.ok (), _, ⟨.inr rfl, fun _ => rfl⟩, rfl⟩
  | serverTime => exact ⟨.ok 0, _, rfl, 0, rfl⟩
  | queryAll soql =>
      by_cases answered : ∃ rows, soql.Selects w.org rows
      · obtain ⟨rows, selects⟩ := answered
        exact ⟨.ok rows, _, ⟨selects, rfl⟩, fun _ _ => ⟨rows, rfl⟩⟩
      · exact ⟨.error "", w, rfl, fun rows selects => absurd ⟨rows, selects⟩ answered⟩
  | utcNow => exact ⟨0, w, rfl, trivial⟩
  | timeNow => exact ⟨0, w, rfl, trivial⟩
  | remainingTime => exact ⟨none, w, rfl, fun _ some_ => nomatch some_⟩
  | random => exact ⟨0, w, ⟨rfl, le_refl 0, zero_lt_one⟩, trivial⟩

/-- Every program has a run on services that work. -/
theorem exists_run_of_serves (S : Services) (settings : Settings) (env : World → World → Prop) {α : Type}
    (program : Act α) (w : World) : ∃ value w', Exec (Serves S settings) env program w value w' := by
  obtain ⟨calls, value, w', run⟩ : ∃ calls value w', Traced (Serves S settings) env program w calls value w' :=
    Traced.exists_run (exists_serves S settings) program w
  exact ⟨value, w', run.exec⟩

end Relay.Delivery
