import Relay.Delivery.Faultless
import Relay.Delivery.Mirror
import Relay.Delivery.NoLoss
import Relay.Worker.Unmappable

/-!
The main queue drains.

On services that work every cycle settles each message it receives (`Placed`) and
removes it, so as many cycles as there are messages leave the main queue empty, in
whatever order SQS hands the messages out. `draining` is the contract of one cycle,
`cycle_drains` the step, `main_queue_drains` the run, from any state that crashes,
failures and interleavings may have left behind.
-/

namespace Relay.Delivery

open Relay.Effect Relay.Platform Relay.Python Relay.Erp Relay.Worker Relay.Sqs

/-- Nothing more is to be done for this body: the ERP stores its order at its version or a
newer one, or the body maps to no order and is in the DLQ. -/
def Placed (rt : Runtime) (w : World) (body : String) : Prop :=
  Applied rt w.erp body ∨
    (∃ exc, orderOf rt body = .error exc) ∧ ∃ m ∈ w.sqs.queue .deadLetters, m.body = body

/-- Messages leave the main queue only once they are placed, and none are added. -/
structure Drains (rt : Runtime) (w w' : World) : Prop where
  writes : Extends w.erp w'.erp
  applied : ∀ body, Applied rt w.erp body → Applied rt w'.erp body
  parked : ∀ m ∈ w.sqs.queue .deadLetters, m ∈ w'.sqs.queue .deadLetters
  fewer : ∀ m ∈ w'.sqs.queue .main, m ∈ w.sqs.queue .main
  handled : ∀ m ∈ w.sqs.queue .main, m ∈ w'.sqs.queue .main ∨ Placed rt w' m.body

theorem Placed.drains {rt : Runtime} {w w' : World} {body : String} (placed : Placed rt w body)
    (drains : Drains rt w w') : Placed rt w' body := by
  rcases placed with applied | ⟨refused, m, mem, same⟩
  · exact .inl (drains.applied body applied)
  · exact .inr ⟨refused, m, drains.parked m mem, same⟩

theorem Drains.refl (rt : Runtime) (w : World) : Drains rt w w :=
  ⟨Extends.refl _, fun _ => id, fun _ => id, fun _ => id, fun _ => .inl⟩

theorem Drains.trans {rt : Runtime} {u v w : World} (first : Drains rt u v) (second : Drains rt v w) :
    Drains rt u w where
  writes := first.writes.trans second.writes
  applied := fun body applied => second.applied body (first.applied body applied)
  parked := fun m mem => second.parked m (first.parked m mem)
  fewer := fun m mem => first.fewer m (second.fewer m mem)
  handled := by
    intro m mem
    rcases first.handled m mem with still | placed
    · exact second.handled m still
    · exact .inr (placed.drains second)

/-- A world in which the worker's own calls, on services that work, only drain the queue. -/
def draining (S : Services) (rt : Runtime) (settings : Settings) : Contract World Request.Answer where
  answers := Serves S settings
  inv w := Kept w.erp ∧ WellFormed w.sqs
  rely := Drains rt
  guar := Drains rt
  rely_refl := Drains.refl rt
  rely_trans := Drains.trans

section Moves

variable {rt : Runtime} {w : World}

theorem drains_written (kept : Kept w.erp) {erp : Dynamo.State Table} (more : Extends w.erp erp) :
    Drains rt w { w with erp := erp } where
  writes := more
  applied := fun _ applied => applied.extends kept more
  parked := fun _ => id
  fewer := fun _ => id
  handled := fun _ => .inl

theorem drains_parked (rt : Runtime) {body : String} {attributes : List (String × String)} {sqs : Sqs.State Queue}
    (sent : Sent .deadLetters body attributes w.sqs sqs) :
    Drains rt w { w with sqs := sqs } ∧ ∃ m ∈ sqs.queue .deadLetters, m.body = body := by
  obtain ⟨m, rfl, -, -, rfl⟩ := sent
  have main : (w.sqs.push .deadLetters m).queue .main = w.sqs.queue .main :=
    push_queue_ne w.sqs m (by decide)
  refine ⟨⟨Extends.refl _, fun _ => id, fun m' mem => mem_push.mpr (.inl mem), fun m' mem => ?_,
    fun m' mem => .inl ?_⟩, m, mem_push.mpr (.inr ⟨rfl, rfl⟩), rfl⟩
  · exact main ▸ mem
  · exact main.symm ▸ mem

/-- Deletes of placed messages. -/
theorem drains_deleted {receipts : List Receipt} {sqs : Sqs.State Queue}
    (deleted : DeletesBatch .main receipts w.sqs sqs)
    (placed : ∀ receipt ∈ receipts, ∀ m ∈ w.sqs.queue .main, receipt.messageId = m.messageId →
      Placed rt w m.body) :
    Drains rt w { w with sqs := sqs } := by
  obtain ⟨-, -, fewer⟩ := deleted.shrinks
  have parked : ∀ m ∈ w.sqs.queue .deadLetters, m ∈ sqs.queue .deadLetters := fun m =>
    deleted.others (by decide)
  refine ⟨Extends.refl _, fun _ => id, parked, fewer .main, fun m mem => ?_⟩
  refine (deleted.remains mem).imp_right fun ⟨receipt, listed, same⟩ => ?_
  exact (placed receipt listed m mem same).imp_right fun ⟨refused, m', mem', same'⟩ =>
    ⟨refused, m', parked m' mem', same'⟩

end Moves

section Programs

variable {S : Services} {rt : Runtime} {settings : Settings} {α β : Type} {w : World}

theorem draining_sequence {first : β → World → Prop} {post : α → World → Prop}
    {program : Act β} {next : β → Act α} (holds : (draining S rt settings).inv w)
    (start : Keeps (draining S rt settings) first program w)
    (rest : ∀ value w₁, (draining S rt settings).inv w₁ → Drains rt w w₁ → first value w₁ →
      Keeps (draining S rt settings) post (next value) w₁) :
    Keeps (draining S rt settings) post (program >>= next) w :=
  Keeps.sequence (C := draining S rt settings) (fun _ _ guar => guar) holds start rest

/-- A call that leaves the world as it found it. -/
theorem draining_observe {request : Request} {next : request.Answer → Act α}
    {post : α → World → Prop}
    (reads : ∀ w₁ answer w₂, S.Answers request w₁ answer w₂ → w₂ = w₁)
    (step : ∀ w₁, Drains rt w w₁ → (draining S rt settings).inv w₁ → ∀ answer,
      Serves S settings request w₁ answer w₁ →
      Keeps (draining S rt settings) post (next answer) w₁) :
    Keeps (draining S rt settings) post (Prog.perform request >>= next) w :=
  Keeps.observe (C := draining S rt settings) (fun w₁ answer w₂ served => reads w₁ answer w₂ served.1)
    (Drains.refl rt) step

/-! ### The write -/

/-- A stored order at the incoming version or above has a verdict. -/
theorem verdict_of_le {order : Order} {item : Dynamo.Item} {stored : Int}
    (value : item "version" = some (.n stored)) (le : order.version ≤ stored) :
    ∃ result, verdict order (some item) = .ok result := by
  rw [verdict_of_stored value]
  by_cases same : stored = order.version
  · exact ⟨.duplicate, if_pos same⟩
  · refine ⟨.stale, ?_⟩
    rw [if_neg same, if_pos (by omega)]

/-- A write whose condition is false ends in a result. -/
theorem classify_drains (printable : Char → Bool) (returns : Bool) {order : Order} {now : String}
    (inv : (draining S rt settings).inv w)
    (failed : (orderUpdate order now).conditionHolds (w.erp.db .orders order.orderId) = false) :
    Keeps (draining S rt settings)
      (fun result w => (∃ value, result = .ok value) ∧ StoredFrom w.erp order.orderId order.version)
      (Erp.classify printable (cancellation returns (transaction order now) w.erp.db) order) w := by
  have first : Worker.reason returns w.erp.db (orderUpdate order now) =
      ⟨some "ConditionalCheckFailed", if returns then w.erp.db .orders order.orderId else none⟩ :=
    if_neg (by rw [show w.erp.db (orderUpdate order now).table (orderUpdate order now).key =
      w.erp.db .orders order.orderId from rfl, failed]; decide)
  have stored := stored_of_condition inv.1 failed
  simp only [Erp.classify, cancellation, transaction, List.map_cons, first, code, Option.getD_some, if_true]
  split
  · rename_i item returned
    cases returns with
    | false => cases returned
    | true =>
        obtain ⟨item', version, here, value, le⟩ := stored
        obtain rfl : item' = item := Option.some.inj (here.symm.trans returned)
        exact ⟨verdict_of_le value le, item', version, here, value, le⟩
  · -- The order is read, perhaps after other writes.
    refine draining_observe (fun _ _ _ answered => answered.1) fun w₁ moved₁ inv₁ reply served => ?_
    obtain ⟨read, item, rfl⟩ := served
    have later := stored.extends inv.1 moved₁.writes
    obtain ⟨item', version, here, value, le⟩ := later
    obtain rfl : item = some item' := (read.2 item rfl).trans here
    exact ⟨verdict_of_le value le, item', version, here, value, le⟩

theorem writeOrder_drains (printable : Char → Bool) (order : Order) (now : String) (w : World) :
    Keeps (draining S rt settings)
      (fun result w => (∃ value, result = .ok value) ∧ StoredFrom w.erp order.orderId order.version)
      (writeOrder printable order now) w := by
  refine Keeps.perform_bind fun w₁ _ inv₁ reply w₂ served => ?_
  obtain ⟨⟨erp, seen, rfl⟩, returns, replied⟩ := served
  have step : Kept erp ∧ Drains rt w₁ { w₁ with erp := erp } := by
    rcases seen.cases with rfl | committed
    · exact ⟨inv₁.1, Drains.refl rt _⟩
    · have more := extends_of_committed committed
      exact ⟨inv₁.1.extends more, drains_written inv₁.1 more⟩
  refine ⟨⟨step.1, inv₁.2⟩, step.2, ?_⟩
  cases commits : (w₁.erp.db.transact (transaction order now)).isSome with
  | true =>
      rw [commits, if_pos rfl] at replied
      subst replied
      exact ⟨⟨.written, rfl⟩, storedFrom_of_committed inv₁.1 seen.2⟩
  | false =>
      rw [commits, if_neg (by decide)] at replied
      subst replied
      obtain rfl : erp = w₁.erp := by
        rcases seen.cases with same | committed
        · exact same
        · rw [committed.1] at commits
          cases commits
      have failed : (orderUpdate order now).conditionHolds (w₁.erp.db .orders order.orderId) = false := by
        rw [← Bool.not_eq_true, ← transact_isSome_of_kept inv₁.1, commits]
        decide
      exact classify_drains printable returns inv₁ failed

/-! ### One record -/

theorem process_drains {record : Record} {chaos : Chaos} (calm : Calm chaos) :
    Keeps (draining S rt settings)
      (fun result w => (∃ exc, orderOf rt record.body = .error exc ∧ result = .error exc) ∨
        (∃ value, result = .ok value) ∧ Applied rt w.erp record.body)
      (process rt record chaos) w := by
  unfold process
  cases maps : orderOf rt record.body with
  | error exc => exact .inl ⟨exc, rfl, rfl⟩
  | ok order =>
      have passes : chaos.maybeFailErp = pure (.ok ()) :=
        if_neg (by rw [calm.passes]; decide)
      simp only [writeUnlessChaos, passes]
      refine draining_observe (fun _ _ _ answered => answered) fun w₁ _ inv₁ now _ => ?_
      refine Keeps.mono (fun result w₂ _ ends => ?_) inv₁
        (writeOrder_drains rt.printable order (isoformat now) w₁)
      exact .inr ⟨ends.1, order, maps, ends.2⟩

/-- A body that maps to no order is parked. -/
theorem deadLetter_drains {record : Record} {reason detail eventKey : String} :
    Keeps (draining S rt settings)
      (fun parked w => parked = true ∧ ∃ m ∈ w.sqs.queue .deadLetters, m.body = record.body)
      (deadLetter record reason detail eventKey) w := by
  refine draining_observe (fun _ _ _ answered => answered) fun w₁ _ _ now _ => ?_
  refine Keeps.perform_bind fun w₂ _ inv₂ reply w₃ served => ?_
  obtain ⟨⟨sqs, answered, rfl⟩, rfl⟩ := served
  obtain ⟨drains, parked⟩ := drains_parked rt (answered.2 rfl)
  obtain ⟨m, -, -, fresh, pushed⟩ := answered.2 rfl
  exact ⟨⟨inv₂.1, pushed ▸ inv₂.2.push fresh⟩, drains, rfl, parked⟩

/-- A record that is read without an uncaught exception ends placed, and is not retried. -/
theorem handleRecord_drains {record : Record} {chaos : Chaos} (calm : Calm chaos)
    (readable : Readable rt record.body) (inv : (draining S rt settings).inv w) :
    Keeps (draining S rt settings)
      (fun result w => (∃ outcome, result = .ok outcome ∧ outcome.isRetry = false) ∧
        Placed rt w record.body)
      (handleRecord rt settings record chaos) w := by
  refine draining_sequence inv (process_drains calm) fun result w₁ inv₁ _ processed => ?_
  rcases processed with ⟨exc, maps, rfl⟩ | ⟨⟨value, rfl⟩, applied⟩
  · obtain ⟨reason, detail, rfl⟩ := (permanent_orderOf_iff rt record.body).mpr readable exc maps
    refine draining_sequence inv₁ deadLetter_drains fun parked w₂ _ _ placed => ?_
    obtain ⟨rfl, here⟩ := placed
    exact ⟨⟨.deadLettered, rfl, rfl⟩, .inr ⟨⟨_, maps⟩, here⟩⟩
  · exact ⟨⟨.result value, rfl, rfl⟩, .inl applied⟩

/-! ### One batch -/

theorem outOfTime_drains : Keeps (draining S rt settings) (fun late _ => late = false)
    (outOfTime settings) w := by
  refine draining_observe (fun _ _ _ answered => answered) fun w₁ _ _ remaining served => ?_
  cases remaining with
  | none => rfl
  | some remaining => exact decide_eq_false (not_lt.mpr (served.2 remaining rfl))

theorem load_drains (paramPrefix : String) : Keeps (draining S rt settings)
    (fun result _ => ∃ chaos, result = .ok chaos ∧ Calm chaos) (Chaos.load paramPrefix) w := by
  refine draining_observe (fun _ _ _ answered => answered) fun w₁ _ _ params served => ?_
  cases params with
  | error err => exact ⟨Chaos.off, rfl, rfl, le_refl 0⟩
  | ok params => exact served.2 params rfl

/-- Every record of a batch ends placed, and none is reported. -/
theorem handleRecords_drains {chaos : Chaos} (calm : Calm chaos) :
    ∀ (messages : List Received) (processed : Nat) (w : World), (draining S rt settings).inv w →
      (∀ m ∈ messages, Readable rt m.message.body) →
      Keeps (draining S rt settings)
        (fun result w => result = .ok [] ∧ ∀ m ∈ messages, Placed rt w m.message.body)
        (handleRecords rt settings chaos processed [] (messages.map toRecord)) w := by
  intro messages
  induction messages with
  | nil => exact fun processed w _ _ => ⟨rfl, fun _ mem => nomatch mem⟩
  | cons m rest ih =>
      intro processed w inv readable
      refine draining_sequence inv outOfTime_drains fun late w₁ inv₁ _ inTime => ?_
      subst inTime
      refine draining_sequence inv₁ (handleRecord_drains calm (readable m List.mem_cons_self) inv₁)
        fun result w₂ inv₂ _ handled => ?_
      obtain ⟨⟨outcome, rfl, settled⟩, placed⟩ := handled
      have survives : chaos.maybeCrash (processed + 1) = .ok () :=
        if_neg fun crash => absurd crash.1 (not_lt.mpr calm.runs)
      simp only [survives, settled]
      have others := ih (processed + 1) w₂ inv₂ fun m' mem => readable m' (List.mem_cons_of_mem _ mem)
      refine Keeps.mono (fun result w₃ _ ends => ⟨ends.1.1, fun m' mem => ?_⟩) inv₂
        (Keeps.moved (C := draining S rt settings) (fun _ _ guar => guar) others)
      rcases List.mem_cons.mp mem with rfl | mem
      · exact placed.drains ends.2
      · exact ends.1.2 m' mem

theorem invoke_drains {messages : List Received} (inv : (draining S rt settings).inv w)
    (readable : ∀ m ∈ messages, Readable rt m.message.body) :
    Keeps (draining S rt settings)
      (fun failed w => failed = some [] ∧ ∀ m ∈ messages, Placed rt w m.message.body)
      (invoke rt settings (messages.map toRecord)) w := by
  have handled : Keeps (draining S rt settings)
      (fun result w => result = .ok [] ∧ ∀ m ∈ messages, Placed rt w m.message.body)
      (handler rt settings (messages.map toRecord)) w := by
    refine draining_sequence inv (load_drains _) fun chaos w₁ inv₁ _ loaded => ?_
    obtain ⟨flags, rfl, calm⟩ := loaded
    exact handleRecords_drains calm messages 0 w₁ inv₁ readable
  refine draining_sequence inv handled fun result w₁ _ _ ends => ?_
  obtain ⟨rfl, placed⟩ := ends
  exact ⟨rfl, placed⟩

/-- A cycle empties the main queue by a message at least, unless it is empty. -/
theorem cycle_drains (settings : Settings) (readable : ∀ m ∈ w.sqs.queue .main, Readable rt m.body) :
    Keeps (draining S rt settings)
      (fun _ w' => w'.sqs.queue .main = [] ∨ ∃ m ∈ w.sqs.queue .main, m ∉ w'.sqs.queue .main)
      (cycle rt settings) w := by
  refine Keeps.perform_bind fun w₁ moved₁ inv₁ reply w₂ served => ?_
  obtain ⟨⟨sqs, ⟨rfl, batch⟩, rfl⟩, messages, rfl, some_⟩ := served
  refine ⟨inv₁, Drains.refl rt w₁, ?_⟩
  have mem := (batch messages rfl).2
  cases messages with
  | nil =>
      refine .inl ?_
      by_contra held
      exact some_ held rfl
  | cons first rest =>
      have read : ∀ m ∈ first :: rest, Readable rt m.message.body := fun m here =>
        readable _ (moved₁.fewer _ (mem m here).1)
      refine draining_sequence inv₁ (invoke_drains inv₁ read) fun failed w₃ inv₃ moved₃ ends => ?_
      obtain ⟨rfl, placed⟩ := ends
      have all : (first :: rest).filter (fun m => m.message.messageId ∉ ([] : List String)) =
          first :: rest := List.filter_eq_self.mpr fun _ _ => by simp
      simp only [all]
      refine Keeps.perform_bind fun w₄ moved₄ inv₄ reply w₅ served => ?_
      obtain ⟨⟨sqs, deleted, rfl⟩, gone⟩ := served
      have settled := drains_deleted deleted fun receipt listed m' held same => by
        obtain ⟨m, here, rfl⟩ := List.mem_map.mp listed
        -- An id names one message of those that were on the queue when the batch was received.
        obtain ⟨q, accepted⟩ := inv₁.2.queued .main _ (mem m here).1
        obtain ⟨q', accepted'⟩ := inv₁.2.queued .main m' (moved₃.fewer m' (moved₄.fewer m' held))
        obtain rfl := inv₁.2.unique accepted' accepted (same.symm.trans (mem m here).2)
        exact (placed m here).drains moved₄
      refine ⟨⟨inv₄.1, deleted.shrinks.2.1 inv₄.2⟩, settled, .inr ⟨first.message, ?_, ?_⟩⟩
      · exact moved₁.fewer _ (mem first List.mem_cons_self).1
      · intro here
        refine gone first.receiptHandle (List.mem_map_of_mem List.mem_cons_self) _ here ?_
        exact (mem first List.mem_cons_self).2.symm

/-! ### Every message -/

/-- Cycles one after another. -/
def cycles (rt : Runtime) (settings : Settings) : Nat → Act Unit
  | 0 => pure ()
  | n + 1 => do
      cycle rt settings
      cycles rt settings n

/-- As many cycles as there are messages empty the main queue. -/
theorem cycles_drain (n : Nat) (inv : (draining S rt settings).inv w)
    (readable : ∀ m ∈ w.sqs.queue .main, Readable rt m.body)
    (enough : (w.sqs.queue .main).toFinset.card ≤ n) :
    Keeps (draining S rt settings) (fun _ w' => w'.sqs.queue .main = []) (cycles rt settings n) w := by
  induction n generalizing w with
  | zero => exact List.toFinset_eq_empty_iff _ |>.mp (Finset.card_eq_zero.mp (by omega))
  | succ n ih =>
      have one := Keeps.moved (C := draining S rt settings) (fun _ _ guar => guar)
        (cycle_drains (S := S) settings readable)
      refine draining_sequence inv one fun _ w₁ inv₁ _ ends => ?_
      obtain ⟨progress, moved⟩ := ends
      refine ih inv₁ (fun m mem => readable m (moved.fewer m mem)) ?_
      rcases progress with empty | ⟨m, before, gone⟩
      · rw [empty]
        exact Nat.zero_le n
      · have fewer : (w₁.sqs.queue .main).toFinset ⊂ (w.sqs.queue .main).toFinset := by
          refine Finset.ssubset_iff_subset_ne.mpr ⟨fun m mem => ?_, fun same => ?_⟩
          · exact List.mem_toFinset.mpr (moved.fewer m (List.mem_toFinset.mp mem))
          · rw [← List.mem_toFinset, ← same, List.mem_toFinset] at before
            exact gone before
        have less := Finset.card_lt_card fewer
        omega

end Programs

/-- What happens around the cycles: others write to the ERP, and whatever is neither in the
ERP nor in SQS changes. -/
inductive Aside : World → World → Prop where
  | writes {w : World} {erp : Dynamo.State Table} : Extends w.erp erp → Aside w { w with erp := erp }
  | elsewhere {w w' : World} : w'.erp = w.erp → w'.sqs = w.sqs → Aside w w'

theorem aside_drains {S : Services} {rt : Runtime} {settings : Settings} {w w' : World}
    (inv : (draining S rt settings).inv w) (aside : Aside w w') :
    (draining S rt settings).inv w' ∧ Drains rt w w' := by
  cases aside with
  | writes more => exact ⟨⟨inv.1.extends more, inv.2⟩, drains_written inv.1 more⟩
  | elsewhere sameErp sameSqs =>
      obtain ⟨erp, sqs, parameters, org, serverTimes, reads⟩ := w'
      obtain rfl : erp = w.erp := sameErp
      obtain rfl : sqs = w.sqs := sameSqs
      exact ⟨inv, Extends.refl _, fun _ => id, fun _ => id, fun _ => id, fun _ => .inl⟩

theorem drained {S : Services} {rt : Runtime} {settings : Settings} {w w' : World} {n : Nat}
    (accounted : Accounted rt w) (readable : ∀ m ∈ w.sqs.queue .main, Readable rt m.body)
    (enough : (w.sqs.queue .main).length ≤ n)
    (run : Exec (Serves S settings) Aside (cycles rt settings n) w () w') :
    w'.sqs.queue .main = [] ∧ Drains rt w w' := by
  have inv : (draining S rt settings).inv w := ⟨accounted.kept, accounted.wellFormed⟩
  have keeps := Keeps.moved (C := draining S rt settings) (fun _ _ guar => guar)
    (cycles_drain n inv readable ((List.toFinset_card_le _).trans enough))
  exact (keeps.exec (fun _ _ => aside_drains) inv run).2

end Relay.Delivery
