import Relay.Relayctl.Desk

/-!
A redrive is safe at every failure point.

The loop has three exits, each with its own messages to release. In a dry run it only
fills its lists (`redriveLoop_dry`); else `redriveLoop_traced` accounts for every message
it was given: moved, skipped, sent but not deleted, or not reached.
-/

namespace Relay.Relayctl

open Relay.Platform Relay.Effect Relay.Sqs Relation

/-- The copy of a message on the main queue. -/
def copy (m : DeadLetter) : String × List (String × String) := (m.body, redriveAttributes m)

/-- What a redrive leaves; `extra` is the message that was sent and whose delete failed. -/
structure Redriven (all dryRun : Bool) (q : Desk) (calls : List (Exchange Request.Answer))
    (result : RedriveResult) (err : Option String) (extra : Option DeadLetter) (q' : Desk) : Prop where
  main : q'.main = q.main ++ if dryRun then [] else (result.moved ++ extra.toList).map copy
  dlq : q'.dlq.stored =
    if dryRun then q.dlq.stored
    else q.dlq.stored.filter (·.messageId ∉ result.moved.map DeadLetter.messageId)
  /-- The delete of the extra message failed, and it is still in the DLQ. -/
  undeleted : ∀ m ∈ extra, dryRun = false ∧ (∃ message,
    ⟨.deleteMessage .deadLetters m.receipt, .error message⟩ ∈ calls) ∧
      ∃ stored ∈ q'.dlq.stored, stored.messageId = m.messageId
  /-- Unless all are to be moved, none with a reason was sent. -/
  reasons : all = false → ∀ m ∈ result.moved ++ extra.toList, m.permanent = false
  /-- What was visible and is still there is visible again, but for the extra message. -/
  visible : ∀ m ∈ q'.dlq.stored, q.dlq.Visible m →
    m.messageId ∉ extra.toList.map DeadLetter.messageId → q'.dlq.Visible m
  listed : ∀ m ∈ result.moved ++ result.skipped ++ extra.toList, ∃ r ∈ received calls, m = toDeadLetter r
  disjoint : ((result.moved ++ result.skipped ++ extra.toList).map DeadLetter.messageId).Nodup
  complete : err = none → ∀ r ∈ received calls, toDeadLetter r ∈ result.moved ++ result.skipped

/-! ### The loop -/

/-- A dry run sends and deletes nothing and releases everything. -/
theorem redriveLoop_dry {all : Bool} {result result' : RedriveResult} {keep msgs : List DeadLetter}
    {err : Option String} {q q' : Desk} {calls : List (Exchange Request.Answer)}
    (receipts : ∀ m ∈ keep ++ msgs, m.receipt.messageId = m.messageId)
    (run : Commands (redriveLoop all true result keep msgs) q calls (result', err) q') :
    ∃ moved skipped, result'.moved = result.moved ++ moved ∧ result'.skipped = result.skipped ++ skipped ∧
      (moved ++ skipped).Perm msgs ∧ (all = false → ∀ m ∈ moved, m.permanent = false) ∧ err = none ∧
      received calls = [] ∧ q' = q.leave [] (keep ++ msgs) := by
  induction msgs generalizing result keep q calls with
  | nil =>
      obtain ⟨done, q₁, before, after, rfl, released, run⟩ := Traced.of_bind run
      obtain ⟨rfl, ended, rfl⟩ := Traced.of_ret run
      cases ended
      rw [List.append_nil] at receipts
      obtain ⟨same, none_⟩ := release_traced receipts released
      refine ⟨[], [], by simp, by simp, .nil, by simp, rfl, ?_, ?_⟩
      · rwa [List.append_nil]
      · rwa [List.append_nil]
  | cons m rest ih =>
      have receipts' : ∀ m' ∈ (keep ++ [m]) ++ rest, m'.receipt.messageId = m'.messageId := by
        simpa using receipts
      rw [redriveLoop] at run
      split at run
      · obtain ⟨moved, skipped, movedEq, skippedEq, perm, reasons, clean, none_, left⟩ := ih receipts' run
        refine ⟨moved, m :: skipped, movedEq, ?_, List.perm_middle.trans (perm.cons m), reasons, clean,
          none_, ?_⟩
        · rw [skippedEq, List.append_assoc]
          rfl
        · rw [left, List.append_assoc]
          rfl
      · rename_i transient
        obtain ⟨moved, skipped, movedEq, skippedEq, perm, reasons, clean, none_, left⟩ := ih receipts' run
        refine ⟨m :: moved, skipped, ?_, skippedEq, perm.cons m, ?_, clean, none_, ?_⟩
        · rw [movedEq, List.append_assoc]
          rfl
        · intro notAll m' mem
          rcases List.mem_cons.mp mem with rfl | mem
          · simpa [notAll] using transient
          · exact reasons notAll m' mem
        · rw [left, List.append_assoc]
          rfl

/-- The queues once copies were sent, some messages are gone and others visible again. -/
def Desk.after (q : Desk) (sent gone back : List DeadLetter) : Desk where
  main := q.main ++ sent.map copy
  dlq := (q.leave gone back).dlq

/-- Every message the loop was given is moved, skipped, sent but not deleted (`extra`) or
not reached (`unreached`). -/
structure Accounts (all : Bool) (msgs moved skipped unreached : List DeadLetter)
    (extra : Option DeadLetter) (calls : List (Exchange Request.Answer)) (err : Option String) : Prop where
  all_ : (moved ++ skipped ++ extra.toList ++ unreached).Perm msgs
  reasons : all = false → ∀ m ∈ moved ++ extra.toList, m.permanent = false
  undeleted : ∀ m ∈ extra, ∃ message, ⟨.deleteMessage .deadLetters m.receipt, .error message⟩ ∈ calls
  clean : err = none → extra = none ∧ unreached = []
  silent : received calls = []

/-- One copy more on the main queue. -/
def Desk.send (q : Desk) (m : DeadLetter) : Desk := { q with main := q.main ++ [copy m] }

theorem Desk.after_cons (q : Desk) (m : DeadLetter) (sent gone back : List DeadLetter) :
    ((q.send m).drop m.messageId).after sent gone back = q.after (m :: sent) (m :: gone) back := by
  rw [Desk.after, Desk.after, Desk.leave_cons, List.map_cons, Desk.drop, Desk.send, List.append_assoc]
  rfl

section Accounts

variable {all : Bool} {msgs moved skipped unreached : List DeadLetter} {extra : Option DeadLetter}
  {calls : List (Exchange Request.Answer)} {err : Option String}

theorem Accounts.skip (accounts : Accounts all msgs moved skipped unreached extra calls err)
    (m : DeadLetter) : Accounts all (m :: msgs) moved (m :: skipped) unreached extra calls err where
  all_ := by
    refine List.Perm.trans ?_ (accounts.all_.cons m)
    simp only [List.append_assoc, List.cons_append]
    exact List.perm_middle
  reasons := accounts.reasons
  undeleted := accounts.undeleted
  clean := accounts.clean
  silent := accounts.silent

/-- A message that was sent and deleted. -/
theorem Accounts.move (accounts : Accounts all msgs moved skipped unreached extra calls err)
    {m : DeadLetter} (reason : all = false → m.permanent = false) {body : String}
    {attributes : List (String × String)} {receipt : Receipt} {sent deleted : Unit} :
    Accounts all (m :: msgs) (m :: moved) skipped unreached extra
      (⟨.sendMessage .main body attributes, .ok sent⟩ ::
        ⟨.deleteMessage .deadLetters receipt, .ok deleted⟩ :: calls) err where
  all_ := accounts.all_.cons m
  reasons := by
    intro notAll m' mem
    rcases List.mem_cons.mp mem with rfl | mem
    · exact reason notAll
    · exact accounts.reasons notAll m' mem
  undeleted := by
    intro m' mem
    obtain ⟨message, here⟩ := accounts.undeleted m' mem
    exact ⟨message, List.mem_cons_of_mem _ (List.mem_cons_of_mem _ here)⟩
  clean := accounts.clean
  silent := accounts.silent

end Accounts

theorem redriveLoop_traced {all : Bool} {result result' : RedriveResult} {keep msgs : List DeadLetter}
    {err : Option String} {q q' : Desk} {calls : List (Exchange Request.Answer)}
    (receipts : ∀ m ∈ keep ++ msgs, m.receipt.messageId = m.messageId)
    (run : Commands (redriveLoop all false result keep msgs) q calls (result', err) q') :
    ∃ moved skipped unreached extra, result'.moved = result.moved ++ moved ∧
      result'.skipped = result.skipped ++ skipped ∧
      Accounts all msgs moved skipped unreached extra calls err ∧
      q' = q.after (moved ++ extra.toList) moved (keep ++ skipped ++ unreached) := by
  induction msgs generalizing result keep q calls with
  | nil =>
      obtain ⟨done, q₁, before, after, rfl, released, run⟩ := Traced.of_bind run
      obtain ⟨rfl, ended, rfl⟩ := Traced.of_ret run
      cases ended
      rw [List.append_nil] at receipts
      obtain ⟨same, none_⟩ := release_traced receipts released
      refine ⟨[], [], [], none, by simp, by simp, ⟨.nil, by simp, by simp, by simp, ?_⟩, ?_⟩
      · rwa [List.append_nil]
      · rw [same]
        simp [Desk.after, Desk.leave]
  | cons m rest ih =>
      have receipts' : ∀ m' ∈ keep ++ rest, m'.receipt.messageId = m'.messageId := by
        intro m' mem
        apply receipts
        rcases List.mem_append.mp mem with mem | mem
        · exact List.mem_append_left _ mem
        · exact List.mem_append_right _ (List.mem_cons_of_mem _ mem)
      have own := receipts m (List.mem_append_right _ List.mem_cons_self)
      rw [redriveLoop] at run
      split at run
      · obtain ⟨moved, skipped, unreached, extra, movedEq, skippedEq, accounts, left⟩ :=
          ih (by simpa using receipts) run
        refine ⟨moved, m :: skipped, unreached, extra, movedEq, ?_, accounts.skip m, ?_⟩
        · rw [skippedEq, List.append_assoc]
          rfl
        · rw [left]
          simp
      · rename_i transient
        have reason : all = false → m.permanent = false := by
          intro notAll
          simpa [notAll] using transient
        rw [if_neg (by simp)] at run
        obtain ⟨q₁, sent, q₂, sending, rfl, moves, answered, run⟩ := Traced.of_perform_bind run
        obtain rfl := alone_star moves
        cases sent with
        | error message =>
            -- Nothing was sent: the message and all after it are released.
            obtain rfl : q = q₂ := Eq.symm answered
            obtain ⟨done, q₃, before, after, rfl, released, run⟩ := Traced.of_bind run
            obtain ⟨rfl, ended, rfl⟩ := Traced.of_ret run
            cases ended
            obtain ⟨same, none_⟩ := release_traced receipts released
            refine ⟨[], [], m :: rest, none, by simp, by simp,
              ⟨by simp, by simp, by simp, by simp, ?_⟩, ?_⟩
            · simpa [received, receivedBy] using none_
            · rw [same]
              simp [Desk.after, Desk.leave]
        | ok sent =>
            obtain rfl : q₂ = q.send m := answered
            obtain ⟨q₃, deleted, q₄, deleting, rfl, moves, answered, run⟩ := Traced.of_perform_bind run
            obtain rfl := alone_star moves
            cases deleted with
            | error message =>
                -- The copy stays, and so does the message, held.
                obtain rfl : q.send m = q₄ := Eq.symm answered
                obtain ⟨done, q₅, before, after, rfl, released, run⟩ := Traced.of_bind run
                obtain ⟨rfl, ended, rfl⟩ := Traced.of_ret run
                cases ended
                obtain ⟨same, none_⟩ := release_traced receipts' released
                refine ⟨[], [], rest, some m, by simp, by simp,
                  ⟨by simp, by simpa using reason, by simp, by simp, ?_⟩, ?_⟩
                · simpa [received, receivedBy] using none_
                · rw [same]
                  simp [Desk.after, Desk.leave, Desk.send]
            | ok deleted =>
                obtain rfl : q₄ = (q.send m).drop m.receipt.messageId := answered
                obtain ⟨moved, skipped, unreached, extra, movedEq, skippedEq, accounts, left⟩ :=
                  ih receipts' run
                refine ⟨m :: moved, skipped, unreached, extra, ?_, skippedEq, ?_, ?_⟩
                · rw [movedEq, List.append_assoc]
                  rfl
                · exact accounts.move reason
                · rw [left, own, Desk.after_cons, List.cons_append]

/-! ### The command -/

section Redrive

variable {all dryRun : Bool} {q q' : Desk} {calls : List (Exchange Request.Answer)} {msgs : List DeadLetter}
  {result : RedriveResult} {err : Option String}

/-- The messages that a command works on are those received, each with its own receipt. -/
structure Peeked (q : Desk) (calls : List (Exchange Request.Answer)) (msgs : List DeadLetter) : Prop where
  batch : q.dlq.Batch (received calls)
  perm : msgs.Perm ((received calls).map toDeadLetter)

theorem Peeked.listed (peeked : Peeked q calls msgs) {m : DeadLetter} (mem : m ∈ msgs) :
    ∃ r ∈ received calls, m = toDeadLetter r := by
  obtain ⟨r, here, rfl⟩ := List.mem_map.mp (peeked.perm.subset mem)
  exact ⟨r, here, rfl⟩

theorem Peeked.receipts (peeked : Peeked q calls msgs) :
    ∀ m ∈ msgs, m.receipt.messageId = m.messageId := by
  intro m mem
  obtain ⟨r, here, rfl⟩ := peeked.listed mem
  exact peeked.batch.receipts r here

theorem Peeked.ids (peeked : Peeked q calls msgs) :
    (msgs.map DeadLetter.messageId).Perm ((received calls).map Received.id) := by
  have ids := peeked.perm.map DeadLetter.messageId
  rwa [map_toDeadLetter_id] at ids

theorem Peeked.distinct (peeked : Peeked q calls msgs) : (msgs.map DeadLetter.messageId).Nodup :=
  peeked.ids.nodup_iff.mpr peeked.batch.distinct

/-- The queues while the received messages are held. -/
def Desk.holding (q : Desk) (calls : List (Exchange Request.Answer)) : Desk :=
  { q with dlq := q.dlq.hold (received calls) }

/-- A message that was visible is visible again if it was released, should it have been received. -/
theorem visible_leave {gone back : List DeadLetter} {m : Message} (visible : q.dlq.Visible m)
    (kept : m.messageId ∉ gone.map DeadLetter.messageId)
    (released : m.messageId ∈ (received calls).map Received.id →
      m.messageId ∈ back.map DeadLetter.messageId) : ((q.holding calls).leave gone back).dlq.Visible m := by
  refine ⟨Desk.mem_leave.mpr ⟨visible.1, kept⟩, fun held => ?_⟩
  obtain ⟨held, -, unreleased⟩ := Desk.held_leave.mp held
  rcases List.mem_append.mp held with held | held
  · exact visible.2 held
  · exact unreleased (released held)

/-- Nothing was sent and everything received was released. -/
theorem redriven_of_released (peeked : Peeked q calls msgs) (dry : dryRun = true ∨ result.moved = [])
    (sub : (result.moved ++ result.skipped).Subperm msgs)
    (reasons : all = false → ∀ m ∈ result.moved, m.permanent = false)
    (complete : err = none → msgs.Perm (result.moved ++ result.skipped))
    (left : q' = (q.holding calls).leave [] msgs) : Redriven all dryRun q calls result err none q' where
  main := by
    rcases dry with rfl | none_
    · simp [left, Desk.leave, Desk.holding]
    · simp [left, none_, Desk.leave, Desk.holding]
  dlq := by
    rcases dry with rfl | none_
    · simp [left, Desk.leave, Desk.holding, Shelf.removeAll, Shelf.releaseAll, Shelf.hold]
    · simp [left, none_, Desk.leave, Desk.holding, Shelf.removeAll, Shelf.releaseAll, Shelf.hold]
  undeleted := by rintro m ⟨⟩
  reasons := by simpa using reasons
  visible := by
    intro m _ visible _
    rw [left]
    exact visible_leave visible (by simp) fun received => peeked.ids.symm.subset received
  listed := by
    intro m mem
    rw [Option.toList_none, List.append_nil] at mem
    exact peeked.listed (sub.subset mem)
  disjoint := by
    rw [Option.toList_none, List.append_nil]
    obtain ⟨some_, perm, sublist⟩ := sub
    exact (perm.map _).nodup_iff.mp ((sublist.map _).nodup peeked.distinct)
  complete := by
    intro clean r here
    have mem : toDeadLetter r ∈ msgs := peeked.perm.symm.subset (List.mem_map_of_mem here)
    exact (complete clean).subset mem

/-- Whatever the loop ends with, the queues are as they should be. -/
theorem redriven_of_accounts {extra : Option DeadLetter} {unreached : List DeadLetter}
    {looped : List (Exchange Request.Answer)} (peeked : Peeked q calls msgs)
    (sub : looped ⊆ calls)
    (accounts : Accounts all msgs result.moved result.skipped unreached extra looped err)
    (left : q' = (q.holding calls).after (result.moved ++ extra.toList) result.moved
      (result.skipped ++ unreached)) : Redriven all false q calls result err extra q' := by
  have distinct : ((result.moved ++ result.skipped ++ extra.toList ++ unreached).map
      DeadLetter.messageId).Nodup := (accounts.all_.map _).nodup_iff.mpr peeked.distinct
  constructor
  · rw [left]
    rfl
  · rw [left]
    simp [Desk.after, Desk.leave, Desk.holding, Shelf.removeAll, Shelf.releaseAll, Shelf.hold]
  · intro m mem
    have here : m ∈ extra.toList := Option.mem_toList.mpr mem
    obtain ⟨message, failed⟩ := accounts.undeleted m mem
    have given : m ∈ msgs := accounts.all_.subset (by simp [here])
    obtain ⟨r, received, rfl⟩ := peeked.listed given
    refine ⟨rfl, ⟨message, sub failed⟩, r.message, ?_, rfl⟩
    rw [left]
    refine Desk.mem_leave.mpr ⟨(peeked.batch.visible r received).1, fun moved => ?_⟩
    rw [List.append_assoc, List.append_assoc, List.map_append, List.nodup_append] at distinct
    have later : toDeadLetter r ∈ result.skipped ++ (extra.toList ++ unreached) :=
      List.mem_append_right _ (List.mem_append_left _ here)
    exact distinct.2.2 _ moved _ (List.mem_map_of_mem later) rfl
  · exact accounts.reasons
  · intro m stored visible notExtra
    rw [left] at stored ⊢
    have kept := (Desk.mem_leave.mp stored).2
    refine visible_leave visible kept fun received => ?_
    have given := (accounts.all_.map DeadLetter.messageId).symm.subset (peeked.ids.symm.subset received)
    simp only [List.map_append, List.mem_append] at given ⊢
    rcases given with ((moved | skipped) | extra) | unreached
    · exact absurd moved kept
    · exact .inl skipped
    · exact absurd extra notExtra
    · exact .inr unreached
  · intro m mem
    exact peeked.listed (accounts.all_.subset (List.mem_append_left _ mem))
  · exact distinct.sublist ((List.sublist_append_left _ _).map _)
  · intro clean r here
    obtain ⟨rfl, rfl⟩ := accounts.clean clean
    have mem : toDeadLetter r ∈ msgs := peeked.perm.symm.subset (List.mem_map_of_mem here)
    simpa using accounts.all_.symm.subset mem

end Redrive

/-- For every DLQ and every failing call, a redrive that ends leaves no message without a copy
and none held that it did not fail to delete; with enough fuel it ends. -/
theorem redrive_safe {all dryRun : Bool} {q q' : Desk} {fuel : Nat} {calls : List (Exchange Request.Answer)}
    {outcome : Option (RedriveResult × Option String)}
    (run : Commands (redrive fuel all dryRun) q calls outcome q') :
    (q.dlq.free.length + 2 < fuel → outcome ≠ none) ∧ ∀ result err, outcome = some (result, err) →
      ∃ extra, Redriven all dryRun q calls result err extra q' := by
  unfold redrive at run
  obtain ⟨peeked, q₁, before, after, rfl, peeking, run⟩ := Traced.of_bind run
  cases peeked with
  | none =>
      obtain ⟨rfl, rfl, rfl⟩ := Traced.of_ret run
      refine ⟨fun enough => absurd rfl (peekLoop_returns (by simp) (by simpa using enough) peeking), ?_⟩
      rintro result err ⟨⟩
  | some peeked =>
      obtain ⟨msgs, failure⟩ := peeked
      obtain ⟨batch, held, perm⟩ := peekLoop_traced (by simp) peeking
      rw [List.nil_append] at perm
      have receipts := Peeked.receipts ⟨batch, perm⟩
      -- What comes after the receives receives nothing.
      have all_ : ∀ later, received later = [] → received (before ++ (later ++ [])) = received before := by
        intro later none_
        rw [received_append, List.append_nil, none_, List.append_nil]
      cases failure with
      | some message =>
          obtain ⟨done, q₂, releasing, last, rfl, released, run⟩ := Traced.of_bind run
          obtain ⟨rfl, rfl, rfl⟩ := Traced.of_ret run
          obtain ⟨left, none_⟩ := release_traced receipts released
          refine ⟨fun _ => by simp, ?_⟩
          rintro result err ⟨⟩
          have total := all_ releasing none_
          have peeked : Peeked q (before ++ (releasing ++ [])) msgs := ⟨by rwa [total], by rwa [total]⟩
          refine ⟨none, redriven_of_released peeked (.inr rfl) ?_ ?_ ?_ ?_⟩
          · exact List.nil_subperm
          · simp
          · simp
          · rw [left, held, Desk.holding, total]
      | none =>
          obtain ⟨⟨result', err'⟩, q₂, looped, last, rfl, loop, run⟩ := Traced.of_bind run
          obtain ⟨rfl, rfl, rfl⟩ := Traced.of_ret run
          refine ⟨fun _ => by simp, ?_⟩
          rintro result err ⟨⟩
          cases dryRun with
          | true =>
              obtain ⟨moved, skipped, movedEq, skippedEq, same, reasons, -, none_, left⟩ :=
                redriveLoop_dry (by simpa using receipts) loop
              rw [List.nil_append] at movedEq skippedEq
              subst movedEq skippedEq
              have total := all_ looped none_
              have peeked : Peeked q (before ++ (looped ++ [])) msgs := ⟨by rwa [total], by rwa [total]⟩
              refine ⟨none, redriven_of_released peeked (.inl rfl) ?_ reasons ?_ ?_⟩
              · exact same.subperm
              · exact fun _ => same.symm
              · rw [left, held, Desk.holding, total]
                rfl
          | false =>
              obtain ⟨moved, skipped, unreached, extra, movedEq, skippedEq, accounts, left⟩ :=
                redriveLoop_traced (by simpa using receipts) loop
              rw [List.nil_append] at movedEq skippedEq
              subst movedEq skippedEq
              have total := all_ looped accounts.silent
              have peeked : Peeked q (before ++ (looped ++ [])) msgs := ⟨by rwa [total], by rwa [total]⟩
              refine ⟨extra, redriven_of_accounts peeked ?_ accounts ?_⟩
              · intro call mem
                simp [mem]
              · rw [left, held, Desk.holding, total]
                rfl

/-- A message that SQS moved and one that the worker parked. -/
def seeded : Desk where
  main := []
  dlq := ⟨[⟨"m1", "transient", [("event_key", "006A:t1")], 0⟩,
    ⟨"m2", "bad", [("event_key", "006C:t1"), ("reason", "missing_amount")], 1⟩], []⟩

/-- The first message is sent and its delete fails: the run stops there. -/
theorem redrive_safe_undeleted : ∃ calls q',
    ∃ extra, Redriven false false seeded calls ⟨[], []⟩
      (some "delete m1 from the DLQ: timeout") extra q' := by
  let r₁ : Received := ⟨⟨"m1", "transient", [("event_key", "006A:t1")], 0⟩, ⟨"m1", 0⟩, some 6⟩
  let r₂ : Received := ⟨⟨"m2", "bad", [("event_key", "006C:t1"), ("reason", "missing_amount")], 1⟩,
    ⟨"m2", 0⟩, some 1⟩
  have batch : seeded.dlq.Batch [r₁, r₂] := by
    constructor
    · simp [r₁, r₂, seeded, Shelf.Visible]
    · simp [r₁, r₂, Received.id]
    · simp [r₁, r₂, Received.id]
  let q₁ : Desk := { seeded with dlq := seeded.dlq.hold [r₁, r₂] }
  have first : Desk.Answers (.receiveMessage .deadLetters 10) seeded (.ok [r₁, r₂]) q₁ :=
    ⟨_, ⟨by simp, batch, rfl⟩, rfl⟩
  have none_ : Desk.Answers (.receiveMessage .deadLetters 10) q₁ (.ok []) q₁ :=
    ⟨_, ⟨by simp, Shelf.batch_nil _, (Shelf.hold_nil _).symm⟩, rfl⟩
  have peeked : Commands (peek 4 1000) seeded
      [⟨.receiveMessage .deadLetters 10, .ok [r₁, r₂]⟩, ⟨.receiveMessage .deadLetters 10, .ok []⟩,
        ⟨.receiveMessage .deadLetters 10, .ok []⟩] (some ([toDeadLetter r₁, toDeadLetter r₂], none)) q₁ :=
    .call .refl first (.call .refl none_ (.call .refl none_ .ret))
  have failed : Desk.Answers (.deleteMessage .deadLetters ⟨"m1", 0⟩) (q₁.send (toDeadLetter r₁))
      (.error "timeout") (q₁.send (toDeadLetter r₁)) := rfl
  have looped : Commands (redriveLoop false false ⟨[], []⟩ [] [toDeadLetter r₁, toDeadLetter r₂]) q₁
      [⟨.sendMessage .main "transient" (redriveAttributes (toDeadLetter r₁)), .ok ()⟩,
        ⟨.deleteMessage .deadLetters ⟨"m1", 0⟩, .error "timeout"⟩,
        ⟨.changeMessageVisibility .deadLetters ⟨"m2", 0⟩ 0, .ok ()⟩]
      (⟨[], []⟩, some "delete m1 from the DLQ: timeout")
      { q₁.send (toDeadLetter r₁) with dlq := (q₁.send (toDeadLetter r₁)).dlq.release "m2" } :=
    .call .refl rfl (.call .refl failed (.call .refl ⟨rfl, rfl⟩ .ret))
  have run : Commands (redrive 4 false false) seeded _
      (some (⟨[], []⟩, some "delete m1 from the DLQ: timeout")) _ := peeked.bind (looped.bind .ret)
  exact ⟨_, _, (redrive_safe run).2 _ _ rfl⟩

end Relay.Relayctl
