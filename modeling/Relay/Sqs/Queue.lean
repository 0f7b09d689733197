import Mathlib.Data.Fintype.EquivFin
import Mathlib.Data.List.Nodup
import Mathlib.Logic.Function.Basic
import Mathlib.Tactic.Tauto

/-!
Message queues that deliver at least once, in any order.

A queue keeps a message until someone deletes it: a receive takes nothing away,
so the same message may be received again at any time. A send may be accepted
although its sender sees an error, and a delete may report success without
effect (a stale receipt) or an error after taking effect. A redrive policy moves
a message with its id, body and attributes to another queue.

The state also records every send that was ever accepted. Message ids are never
reused, so an id names one message for good (`WellFormed.unique`).
-/

namespace Relay.Sqs

structure Message where
  messageId : String
  body : String
  /-- String message attributes, by name. -/
  attributes : List (String × String)
  sentTimestamp : Int
deriving DecidableEq

/-- A message attribute's value. -/
def Message.attribute? (m : Message) (name : String) : Option String := m.attributes.lookup name

/-- What a delete or a visibility change names: one receive of one message. -/
structure Receipt where
  messageId : String
  serial : Nat
deriving DecidableEq

structure Received where
  message : Message
  receiptHandle : Receipt
  approximateReceiveCount : Option Int

/-- An entry of a batch send. -/
structure Entry where
  id : String
  body : String
  attributes : List (String × String)
deriving DecidableEq

structure State (Q : Type) where
  queue : Q → List Message
  accepted : List (Q × Message)

variable {Q : Type} [DecidableEq Q]

def State.empty : State Q := ⟨fun _ => [], []⟩

/-- `m` is stored on `q`. -/
def State.push (s : State Q) (q : Q) (m : Message) : State Q where
  queue := Function.update s.queue q (s.queue q ++ [m])
  accepted := s.accepted ++ [(q, m)]

/-- The message with this id leaves `q`. -/
def State.remove (s : State Q) (q : Q) (messageId : String) : State Q where
  queue := Function.update s.queue q ((s.queue q).filter fun m => m.messageId ≠ messageId)
  accepted := s.accepted

/-- `m` leaves `q` for `q'` as it is. -/
def State.move (s : State Q) (q q' : Q) (m : Message) : State Q where
  queue := Function.update (s.remove q m.messageId).queue q'
    ((s.remove q m.messageId).queue q' ++ [m])
  accepted := s.accepted

/-- The id of an accepted message. -/
def State.Known (s : State Q) (messageId : String) : Prop :=
  ∃ entry ∈ s.accepted, entry.2.messageId = messageId

/-- A send of this body with these attributes is accepted under a new id. -/
def Sent (q : Q) (body : String) (attributes : List (String × String)) (s s' : State Q) : Prop :=
  ∃ m : Message, m.body = body ∧ m.attributes = attributes ∧ ¬ s.Known m.messageId ∧ s' = s.push q m

/-- The entries of a list are accepted one after another. -/
inductive SentAll (q : Q) : List Entry → State Q → State Q → Prop where
  | nil {s : State Q} : SentAll q [] s s
  | cons {entry : Entry} {rest : List Entry} {s s₁ s₂ : State Q} :
      Sent q entry.body entry.attributes s s₁ → SentAll q rest s₁ s₂ →
      SentAll q (entry :: rest) s s₂

/-! ### Replies -/

/-- A receive returns at most ten messages of the queue and takes none away. -/
def Receives (q : Q) (s : State Q) (reply : Except String (List Received)) (s' : State Q) : Prop :=
  s' = s ∧ ∀ batch, reply = .ok batch → batch.length ≤ 10 ∧ ∀ r ∈ batch, r.message ∈ s.queue q ∧
    r.receiptHandle.messageId = r.message.messageId

/-- A send that returns without an error was accepted. -/
def Sends (q : Q) (body : String) (attributes : List (String × String)) (s : State Q)
    (reply : Except String Unit) (s' : State Q) : Prop :=
  (s' = s ∨ Sent q body attributes s s') ∧ (reply = .ok () → Sent q body attributes s s')

/-- One entry of a batch send's `Failed` list. -/
structure BatchFailure where
  id : String
  code : String
  message : String
deriving DecidableEq

structure BatchReply where
  successful : List String
  failed : List BatchFailure

/-- The entries a batch send did not report as failed. -/
def BatchReply.accepts (out : BatchReply) (entry : Entry) : Bool :=
  entry.id ∉ out.failed.map BatchFailure.id

/-- A batch send that returns lists the ids of the entries it did not accept; of
a batch send that fails any part may have been accepted. -/
def SendsBatch (q : Q) (entries : List Entry) (s : State Q) (reply : Except String BatchReply)
    (s' : State Q) : Prop :=
  ∃ stored : List Entry, stored.Sublist entries ∧ SentAll q stored s s' ∧
    ∀ out, reply = .ok out →
      stored = entries.filter out.accepts ∧ out.successful = stored.map Entry.id

/-- A delete removes the message of its receipt or nothing. -/
def Deletes (q : Q) (receipt : Receipt) (s s' : State Q) : Prop :=
  s' = s ∨ s' = s.remove q receipt.messageId

/-- The messages of some of the receipts are removed. -/
inductive DeletesBatch (q : Q) : List Receipt → State Q → State Q → Prop where
  | nil {s : State Q} : DeletesBatch q [] s s
  | cons {receipt : Receipt} {rest : List Receipt} {s s₁ s₂ : State Q} :
      Deletes q receipt s s₁ → DeletesBatch q rest s₁ s₂ → DeletesBatch q (receipt :: rest) s s₂

/-! ### Sends that are accepted -/

omit [DecidableEq Q] in
/-- A queue always finds a new id. -/
theorem exists_fresh (s : State Q) : ∃ messageId, ¬ s.Known messageId := by
  obtain ⟨messageId, fresh⟩ :=
    Infinite.exists_notMem_finset (s.accepted.map fun entry => entry.2.messageId).toFinset
  refine ⟨messageId, ?_⟩
  rintro ⟨entry, mem, rfl⟩
  exact fresh (List.mem_toFinset.mpr (List.mem_map_of_mem mem))

theorem exists_sent (q : Q) (body : String) (attributes : List (String × String)) (s : State Q) :
    ∃ s', Sent q body attributes s s' := by
  obtain ⟨messageId, fresh⟩ := exists_fresh s
  exact ⟨_, ⟨messageId, body, attributes, 0⟩, rfl, rfl, fresh, rfl⟩

theorem exists_sentAll (q : Q) (entries : List Entry) (s : State Q) : ∃ s', SentAll q entries s s' := by
  induction entries generalizing s with
  | nil => exact ⟨s, .nil⟩
  | cons entry rest ih =>
      obtain ⟨s₁, first⟩ := exists_sent q entry.body entry.attributes s
      obtain ⟨s₂, others⟩ := ih s₁
      exact ⟨s₂, .cons first others⟩

/-! ### Queues over time -/

@[simp] theorem push_queue_self (s : State Q) (q : Q) (m : Message) :
    (s.push q m).queue q = s.queue q ++ [m] := by simp [State.push]

theorem push_queue_ne (s : State Q) {q q' : Q} (m : Message) (other : q' ≠ q) :
    (s.push q m).queue q' = s.queue q' := by simp [State.push, other]

@[simp] theorem push_accepted (s : State Q) (q : Q) (m : Message) :
    (s.push q m).accepted = s.accepted ++ [(q, m)] := rfl

@[simp] theorem remove_accepted (s : State Q) (q : Q) (messageId : String) :
    (s.remove q messageId).accepted = s.accepted := rfl

@[simp] theorem move_accepted (s : State Q) (q q' : Q) (m : Message) :
    (s.move q q' m).accepted = s.accepted := rfl

theorem mem_push {s : State Q} {q q' : Q} {m m' : Message} :
    m' ∈ (s.push q m).queue q' ↔ m' ∈ s.queue q' ∨ (q' = q ∧ m' = m) := by
  by_cases same : q' = q
  · subst same
    simp
  · rw [push_queue_ne s m same]
    simp [same]

theorem mem_remove {s : State Q} {q q' : Q} {messageId : String} {m : Message} :
    m ∈ (s.remove q messageId).queue q' ↔
      m ∈ s.queue q' ∧ (q' = q → m.messageId ≠ messageId) := by
  by_cases same : q' = q
  · subst same
    simp [State.remove]
  · simp [State.remove, same]

theorem mem_move {s : State Q} {q q' q'' : Q} {m m' : Message} (apart : q ≠ q') :
    m' ∈ (s.move q q' m).queue q'' ↔
      (m' ∈ s.queue q'' ∧ (q'' = q → m'.messageId ≠ m.messageId)) ∨ (q'' = q' ∧ m' = m) := by
  by_cases same : q'' = q'
  · subst same
    simp [State.move, mem_remove, Ne.symm apart]
  · simp only [State.move, Function.update_of_ne same, same, false_and, or_false]
    exact mem_remove

/-- A message of an entry. -/
def Entry.Of (entry : Entry) (m : Message) : Prop :=
  m.body = entry.body ∧ m.attributes = entry.attributes

/-- The accepted entries are recorded in their order. -/
theorem SentAll.accepted {q : Q} {stored : List Entry} {s s' : State Q} (sent : SentAll q stored s s') :
    ∃ ms : List Message, s'.accepted = s.accepted ++ ms.map (fun m => (q, m)) ∧
      List.Forall₂ Entry.Of stored ms := by
  induction sent with
  | nil => exact ⟨[], by simp, .nil⟩
  | cons first _ ih =>
      obtain ⟨m, body, attributes, -, rfl⟩ := first
      obtain ⟨ms, accepted, all⟩ := ih
      refine ⟨m :: ms, ?_, .cons ⟨body, attributes⟩ all⟩
      rw [accepted, push_accepted, List.append_assoc]
      rfl

/-- A message on a queue after a batch send was there before, or is one of the entries. -/
theorem SentAll.queued {q : Q} {entries : List Entry} {s s' : State Q} (sent : SentAll q entries s s')
    {q' : Q} {m : Message} (mem : m ∈ s'.queue q') :
    m ∈ s.queue q' ∨ ∃ entry ∈ entries, entry.Of m := by
  induction sent with
  | nil => exact .inl mem
  | cons first _ ih =>
      obtain ⟨m', body, attributes, -, rfl⟩ := first
      rcases ih mem with before | ⟨entry, here, of⟩
      · rcases mem_push.mp before with before | ⟨-, rfl⟩
        · exact .inl before
        · exact .inr ⟨_, List.mem_cons_self, body, attributes⟩
      · exact .inr ⟨entry, List.mem_cons_of_mem _ here, of⟩

/-- A batch send takes nothing away. -/
theorem SentAll.keeps {q : Q} {entries : List Entry} {s s' : State Q} (sent : SentAll q entries s s')
    {q' : Q} {m : Message} (mem : m ∈ s.queue q') : m ∈ s'.queue q' := by
  induction sent with
  | nil => exact mem
  | cons first _ ih =>
      obtain ⟨m', -, -, -, rfl⟩ := first
      exact ih (mem_push.mpr (.inl mem))

/-- Every message on a queue was accepted, and no id was accepted twice. -/
structure WellFormed (s : State Q) : Prop where
  queued : ∀ q, ∀ m ∈ s.queue q, ∃ q', (q', m) ∈ s.accepted
  ids : (s.accepted.map fun entry => entry.2.messageId).Nodup

omit [DecidableEq Q] in
theorem wellFormed_empty : WellFormed (State.empty : State Q) :=
  ⟨by simp [State.empty], by simp [State.empty]⟩

omit [DecidableEq Q] in
/-- An id names one message. -/
theorem WellFormed.unique {s : State Q} (wf : WellFormed s) {q q' : Q} {m m' : Message}
    (first : (q, m) ∈ s.accepted) (second : (q', m') ∈ s.accepted)
    (same : m.messageId = m'.messageId) : m = m' :=
  congrArg Prod.snd (List.inj_on_of_nodup_map wf.ids first second same)

theorem WellFormed.push {s : State Q} (wf : WellFormed s) {q : Q} {m : Message}
    (fresh : ¬ s.Known m.messageId) : WellFormed (s.push q m) where
  queued := by
    intro q' m' mem
    rcases mem_push.mp mem with mem | ⟨-, rfl⟩
    · obtain ⟨q'', accepted⟩ := wf.queued q' m' mem
      exact ⟨q'', by simp [accepted]⟩
    · exact ⟨q, by simp⟩
  ids := by
    rw [push_accepted, List.map_append, List.nodup_append]
    refine ⟨wf.ids, by simp, fun id mem id' mem' same => ?_⟩
    obtain ⟨entry, accepted, rfl⟩ := List.mem_map.mp mem
    obtain rfl : id' = m.messageId := by simpa using mem'
    exact fresh ⟨entry, accepted, same⟩

theorem WellFormed.remove {s : State Q} (wf : WellFormed s) (q : Q) (messageId : String) :
    WellFormed (s.remove q messageId) where
  queued := fun q' m mem => wf.queued q' m (mem_remove.mp mem).1
  ids := wf.ids

theorem WellFormed.move {s : State Q} (wf : WellFormed s) {q q' : Q} (apart : q ≠ q') {m : Message}
    (here : m ∈ s.queue q) : WellFormed (s.move q q' m) where
  queued := by
    intro q'' m' mem
    rcases (mem_move apart).mp mem with ⟨mem, -⟩ | ⟨-, rfl⟩
    · exact wf.queued q'' m' mem
    · exact wf.queued q _ here
  ids := wf.ids

/-- What the accepted entries of a batch add to the queues. -/
theorem SentAll.stored {q : Q} {entries : List Entry} {s s' : State Q} (wf : WellFormed s)
    (sent : SentAll q entries s s') :
    ∃ ms : List Message, s'.accepted = s.accepted ++ ms.map (fun m => (q, m)) ∧
      (∀ m ∈ ms, (∃ entry ∈ entries, entry.Of m) ∧ ¬ s.Known m.messageId) ∧ WellFormed s' ∧
      ∀ q' m, m ∈ s'.queue q' ↔ m ∈ s.queue q' ∨ q' = q ∧ m ∈ ms := by
  induction sent with
  | nil => exact ⟨[], by simp, by simp, wf, by simp⟩
  | @cons entry rest _ _ _ first _ ih =>
      obtain ⟨m, body, attributes, fresh, rfl⟩ := first
      obtain ⟨ms, accepted, each, wf', queues⟩ := ih (wf.push fresh)
      refine ⟨m :: ms, ?_, ?_, wf', ?_⟩
      · rw [accepted, push_accepted, List.append_assoc]
        rfl
      · intro m' mem
        rcases List.mem_cons.mp mem with rfl | mem
        · exact ⟨⟨entry, List.mem_cons_self, body, attributes⟩, fresh⟩
        · obtain ⟨⟨entry', here, of⟩, new⟩ := each m' mem
          refine ⟨⟨entry', List.mem_cons_of_mem _ here, of⟩, ?_⟩
          rintro ⟨known, mem', same⟩
          exact new ⟨known, by simp [mem'], same⟩
      · intro q' m'
        rw [queues, mem_push, List.mem_cons]
        tauto

/-- Deletes record nothing and add nothing. -/
theorem DeletesBatch.shrinks {q : Q} {receipts : List Receipt} {s s' : State Q}
    (deleted : DeletesBatch q receipts s s') :
    s'.accepted = s.accepted ∧ (WellFormed s → WellFormed s') ∧
      ∀ q' m, m ∈ s'.queue q' → m ∈ s.queue q' := by
  induction deleted with
  | nil => exact ⟨rfl, id, fun _ _ mem => mem⟩
  | cons first _ ih =>
      obtain ⟨accepted, keeps, fewer⟩ := ih
      rcases first with rfl | rfl
      · exact ⟨accepted, keeps, fewer⟩
      · exact ⟨accepted, fun wf => keeps (wf.remove _ _),
          fun q' m mem => (mem_remove.mp (fewer q' m mem)).1⟩

/-- Deletes leave the other queues as they were. -/
theorem DeletesBatch.others {q : Q} {receipts : List Receipt} {s s' : State Q}
    (deleted : DeletesBatch q receipts s s') {q' : Q} (apart : q' ≠ q) {m : Message}
    (mem : m ∈ s.queue q') : m ∈ s'.queue q' := by
  induction deleted with
  | nil => exact mem
  | cons first _ ih =>
      rcases first with rfl | rfl
      · exact ih mem
      · exact ih (mem_remove.mpr ⟨mem, fun same => absurd same apart⟩)

/-- A message that deletes took away is that of a receipt. -/
theorem DeletesBatch.remains {q : Q} {receipts : List Receipt} {s s' : State Q}
    (deleted : DeletesBatch q receipts s s') {m : Message} (mem : m ∈ s.queue q) :
    m ∈ s'.queue q ∨ ∃ receipt ∈ receipts, receipt.messageId = m.messageId := by
  induction deleted with
  | nil => exact .inl mem
  | @cons receipt rest _ _ _ first _ ih =>
      have later : ∀ {P : Prop}, (P ∨ ∃ r ∈ rest, r.messageId = m.messageId) →
          P ∨ ∃ r ∈ receipt :: rest, r.messageId = m.messageId := fun found =>
        found.imp_right fun ⟨r, listed, same⟩ => ⟨r, List.mem_cons_of_mem _ listed, same⟩
      rcases first with rfl | rfl
      · exact later (ih mem)
      · by_cases same : m.messageId = receipt.messageId
        · exact .inr ⟨receipt, List.mem_cons_self, same.symm⟩
        · exact later (ih (mem_remove.mpr ⟨mem, fun _ => same⟩))

end Relay.Sqs
