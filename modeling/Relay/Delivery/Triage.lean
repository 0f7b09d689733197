import Relay.Delivery.Origins
import Relay.Relayctl.Desk

/-!
DLQ triage over whole runs.

Only the worker sends to the DLQ, always with a reason, and whatever else is sent
goes to the main queue without one. SQS moves a message with its attributes, so
the reason tells the two ways into the DLQ apart for good (`Sorted`).
-/

namespace Relay.Delivery

open Relay.Effect Relay.Platform Relay.Python Relay.Worker Relay.Relayctl Relay.Sqs Relation

/-! ### The invariant -/

structure Sorted (w : Watched) : Prop where
  wellFormed : WellFormed w.world.sqs
  recorded : w.sent.map Prod.snd = w.world.sqs.accepted
  routes : ∀ component q m, (component, q, m) ∈ w.sent → Route component q m.body m.attributes
  moved : ∀ m ∈ w.moved, (Queue.main, m) ∈ w.world.sqs.accepted
  main : ∀ m ∈ w.world.sqs.queue .main, (Queue.main, m) ∈ w.world.sqs.accepted ∧ m ∉ w.moved
  deadLetters : ∀ m ∈ w.world.sqs.queue .deadLetters,
    (Queue.deadLetters, m) ∈ w.world.sqs.accepted ∨ m ∈ w.moved

/-- `m` is in neither queue. -/
def Gone (w : Watched) (m : Message) : Prop := ∀ q, m ∉ w.world.sqs.queue q

/-- What only grows, and that a message which is gone stays away. -/
structure Later (w w' : Watched) : Prop where
  sent : ∀ entry ∈ w.sent, entry ∈ w'.sent
  moved : ∀ m ∈ w.moved, m ∈ w'.moved
  gone : ∀ q m, (q, m) ∈ w.world.sqs.accepted → Gone w m → Gone w' m
  accepted : ∀ entry ∈ w.world.sqs.accepted, entry ∈ w'.world.sqs.accepted

theorem Later.refl (w : Watched) : Later w w :=
  ⟨fun _ mem => mem, fun _ mem => mem, fun _ _ _ gone => gone, fun _ mem => mem⟩

theorem Later.trans {u v w : Watched} (first : Later u v) (second : Later v w) : Later u w where
  sent := fun entry mem => second.sent entry (first.sent entry mem)
  moved := fun m mem => second.moved m (first.moved m mem)
  gone := fun q m mem gone => second.gone q m (first.accepted _ mem) (first.gone q m mem gone)
  accepted := fun entry mem => second.accepted entry (first.accepted entry mem)

/-- The worker's `dead_letter` sent this message to the DLQ. -/
def Parked (w : Watched) (m : Message) : Prop :=
  (Component.worker, Queue.deadLetters, m) ∈ w.sent ∧ ∃ record reason detail key now,
    m.body = Record.body record ∧ m.attributes = deadLetterAttributes record reason detail key now

namespace Sorted

variable {w : Watched}

theorem start (noMessages : w.world.sqs = State.empty) (noneSent : w.sent = []) (noneMoved : w.moved = []) :
    Sorted w where
  wellFormed := noMessages ▸ wellFormed_empty
  recorded := by
    rw [noneSent, noMessages]
    rfl
  routes := by simp [noneSent]
  moved := by simp [noneMoved]
  main := by simp [noMessages, State.empty]
  deadLetters := by simp [noMessages, State.empty]

/-- Every accepted message was sent by a component. -/
theorem sender (sorted : Sorted w) {q : Queue} {m : Message} (mem : (q, m) ∈ w.world.sqs.accepted) :
    ∃ component, (component, q, m) ∈ w.sent := by
  rw [← sorted.recorded] at mem
  obtain ⟨⟨component, entry⟩, sent, rfl⟩ := List.mem_map.mp mem
  exact ⟨component, sent⟩

/-- What the main queue accepted has no reason. -/
theorem no_reason (sorted : Sorted w) {m : Message} (mem : (Queue.main, m) ∈ w.world.sqs.accepted) :
    attr m "reason" = "" := by
  obtain ⟨component, sent⟩ := sorted.sender mem
  have route := sorted.routes _ _ _ sent
  rw [attr, Message.attribute?]
  cases component with
  | worker => exact absurd route.1 (by decide)
  | _ => rw [route.2]; rfl

/-- What the DLQ accepted was sent by the worker. -/
theorem parked (sorted : Sorted w) {m : Message} (mem : (Queue.deadLetters, m) ∈ w.world.sqs.accepted) :
    Parked w m := by
  obtain ⟨component, sent⟩ := sorted.sender mem
  have route := sorted.routes _ _ _ sent
  cases component with
  | worker => exact ⟨sent, route.2⟩
  | _ => exact absurd route.1 (by decide)

end Sorted

theorem orDash_ne_empty (value : String) : orDash value ≠ "" := by
  unfold orDash
  split
  · decide
  · assumption

/-- What the worker parked has a reason. -/
theorem Parked.reason {w : Watched} {m : Message} (parked : Parked w m) : attr m "reason" ≠ "" := by
  obtain ⟨-, record, reason, detail, key, now, -, attributes⟩ := parked
  rw [attr, Message.attribute?, attributes]
  exact orDash_ne_empty reason

theorem permanent_iff {r : Received} : (toDeadLetter r).permanent = true ↔ attr r.message "reason" ≠ "" := by
  simp [DeadLetter.permanent, toDeadLetter]

/-- A message in the DLQ is permanent exactly when the worker parked it, and else
SQS moved it there. -/
theorem Sorted.faithful {w : Watched} (sorted : Sorted w) {r : Received}
    (here : r.message ∈ w.world.sqs.queue .deadLetters) :
    ((toDeadLetter r).permanent = true ↔ Parked w r.message) ∧
      ((toDeadLetter r).permanent = false ↔ r.message ∈ w.moved) := by
  rcases sorted.deadLetters _ here with accepted | moved
  · have parked := sorted.parked accepted
    have permanent := permanent_iff.mpr parked.reason
    refine ⟨⟨fun _ => parked, fun _ => permanent⟩, ?_⟩
    rw [permanent]
    constructor
    · intro never
      cases never
    · intro moved
      exact absurd (sorted.no_reason (sorted.moved _ moved)) parked.reason
  · have none_ := sorted.no_reason (sorted.moved _ moved)
    have transient : (toDeadLetter r).permanent = false := by
      rw [← Bool.not_eq_true, permanent_iff, not_not]
      exact none_
    refine ⟨?_, fun _ => moved, fun _ => transient⟩
    rw [transient]
    constructor
    · intro never
      cases never
    · intro parked
      exact absurd none_ parked.reason

/-! ### Steps -/

/-- A request may take the message of this receipt off `q`. -/
inductive Takes : Request → Queue → Receipt → Prop where
  | message {q : Queue} {receipt : Receipt} : Takes (.deleteMessage q receipt) q receipt
  | batch {q : Queue} {receipts : List Receipt} {receipt : Receipt} : receipt ∈ receipts →
      Takes (.deleteMessageBatch q receipts) q receipt

/-- What an answer may do to the queues: nothing, store entries that the request
puts there, or delete messages that it takes. -/
theorem answers_sqs {S : Services} {request : Request} {w w' : World} {reply : request.Answer}
    (answered : S.Answers request w reply w') :
    w'.sqs = w.sqs ∨
    (∃ q entries, SentAll q entries w.sqs w'.sqs ∧
      ∀ entry ∈ entries, Puts request q entry.body entry.attributes) ∨
    ∃ q receipts, DeletesBatch q receipts w.sqs w'.sqs ∧ ∀ receipt ∈ receipts, Takes request q receipt := by
  cases request with
  | transactWriteItems items =>
      obtain ⟨erp, -, rfl⟩ := answered
      exact .inl rfl
  | getItem table key =>
      obtain ⟨rfl, -⟩ := answered
      exact .inl rfl
  | scan table start =>
      obtain ⟨rfl, -⟩ := answered
      exact .inl rfl
  | receiveMessage q most =>
      obtain ⟨sqs, ⟨rfl, -⟩, rfl⟩ := answered
      exact .inl rfl
  | sendMessage q body attributes =>
      obtain ⟨sqs, ⟨rfl | sent, -⟩, rfl⟩ := answered
      · exact .inl rfl
      · refine .inr (.inl ⟨q, [⟨"", body, attributes⟩], .cons sent .nil, ?_⟩)
        intro entry mem
        obtain rfl := List.mem_singleton.mp mem
        exact .message
  | sendMessageBatch q entries =>
      obtain ⟨sqs, ⟨stored, part, sent, -⟩, rfl⟩ := answered
      exact .inr (.inl ⟨q, stored, sent, fun entry mem => .batch (part.subset mem)⟩)
  | deleteMessage q receipt =>
      obtain ⟨sqs, deleted, rfl⟩ := answered
      refine .inr (.inr ⟨q, [receipt], .cons deleted .nil, fun receipt' mem => ?_⟩)
      obtain rfl := List.mem_singleton.mp mem
      exact .message
  | deleteMessageBatch q receipts =>
      obtain ⟨sqs, deleted, rfl⟩ := answered
      exact .inr (.inr ⟨q, receipts, deleted, fun _ mem => .batch mem⟩)
  | changeMessageVisibility q receipt seconds => exact .inl (congrArg World.sqs answered)
  | getParameter name =>
      obtain ⟨rfl, -⟩ := answered
      exact .inl rfl
  | getParameters names => exact .inl (congrArg World.sqs answered)
  | putParameter name value =>
      rcases answered.1 with rfl | rfl <;> exact .inl rfl
  | serverTime =>
      obtain rfl : w' = _ := answered
      exact .inl rfl
  | queryAll soql =>
      cases reply with
      | ok rows =>
          obtain ⟨-, rfl⟩ := answered
          exact .inl rfl
      | error err => exact .inl (congrArg World.sqs answered)
  | utcNow => exact .inl (congrArg World.sqs answered)
  | timeNow => exact .inl (congrArg World.sqs answered)
  | remainingTime => exact .inl (congrArg World.sqs answered)
  | random => exact .inl (congrArg World.sqs answered.1)

/-- New messages of one component on its route, and nothing else new. -/
theorem Sorted.add {w w' : Watched} (sorted : Sorted w) (component : Component) (q : Queue)
    (ms : List Message) (wf : WellFormed w'.world.sqs)
    (accepted : w'.world.sqs.accepted = w.world.sqs.accepted ++ ms.map fun m => (q, m))
    (sent : w'.sent = w.sent ++ (ms.map fun m => (q, m)).map fun entry => (component, entry))
    (moved : w'.moved = w.moved) (fresh : ∀ m ∈ ms, ¬ w.world.sqs.Known m.messageId)
    (route : ∀ m ∈ ms, Route component q m.body m.attributes)
    (queues : ∀ q' m, m ∈ w'.world.sqs.queue q' → m ∈ w.world.sqs.queue q' ∨ q' = q ∧ m ∈ ms) :
    Sorted w' ∧ Later w w' := by
  have kept : ∀ entry ∈ w.world.sqs.accepted, entry ∈ w'.world.sqs.accepted := by
    intro entry mem
    rw [accepted]
    exact List.mem_append_left _ mem
  have new : ∀ m ∈ ms, (q, m) ∈ w'.world.sqs.accepted := by
    intro m mem
    rw [accepted]
    exact List.mem_append_right _ (List.mem_map_of_mem mem)
  constructor
  · constructor
    · exact wf
    · rw [sent, accepted, List.map_append, sorted.recorded]
      simp [Function.comp_def]
    · intro component' q' m mem
      rw [sent] at mem
      rcases List.mem_append.mp mem with mem | mem
      · exact sorted.routes component' q' m mem
      · simp only [List.map_map, List.mem_map, Function.comp_apply, Prod.mk.injEq] at mem
        obtain ⟨m', here, rfl, rfl, rfl⟩ := mem
        exact route m' here
    · intro m mem
      rw [moved] at mem
      exact kept _ (sorted.moved m mem)
    · intro m mem
      rw [moved]
      rcases queues _ m mem with before | ⟨rfl, here⟩
      · exact ⟨kept _ (sorted.main m before).1, (sorted.main m before).2⟩
      · exact ⟨new m here, fun already => fresh m here ⟨_, sorted.moved m already, rfl⟩⟩
    · intro m mem
      rw [moved]
      rcases queues _ m mem with before | ⟨rfl, here⟩
      · exact (sorted.deadLetters m before).imp (kept _) id
      · exact .inl (new m here)
  · constructor
    · intro entry mem
      rw [sent]
      exact List.mem_append_left _ mem
    · intro m mem
      rwa [moved]
    · intro q' m known gone q'' mem
      rcases queues q'' m mem with before | ⟨-, here⟩
      · exact gone q'' before
      · exact fresh m here ⟨_, known, rfl⟩
    · exact kept

/-- A call on its component's route. -/
theorem Sorted.call {S : Services} {w w' : Watched} {call : Component × Request}
    {reply : call.2.Answer} (sorted : Sorted w) (routed : Routed call.1 call.2)
    (answered : Watched.Answers S call w reply w') : Sorted w' ∧ Later w w' := by
  obtain ⟨answered, moved, added, accepted, sent⟩ := answered
  rcases answers_sqs answered with same | ⟨q, entries, stored, puts⟩ | ⟨q, receipts, deleted, -⟩
  · have none_ : added = [] := by
      rw [same] at accepted
      exact List.self_eq_append_right.mp accepted
    subst none_
    apply sorted.add call.1 .main []
    · exact same ▸ sorted.wellFormed
    · exact accepted
    · exact sent
    · exact moved
    · simp
    · simp
    · intro q' m mem
      exact .inl (same ▸ mem)
  · obtain ⟨ms, accepted', each, wf, queues⟩ := stored.stored sorted.wellFormed
    obtain rfl : added = ms.map fun m => (q, m) := List.append_cancel_left (accepted.symm.trans accepted')
    apply sorted.add call.1 q ms wf accepted sent moved (fun m mem => (each m mem).2)
    · intro m mem
      obtain ⟨entry, here, body, attributes⟩ := (each m mem).1
      rw [body, attributes]
      exact routed q _ _ (puts entry here)
    · intro q' m mem
      exact (queues q' m).mp mem
  · obtain ⟨accepted', keeps, fewer⟩ := deleted.shrinks
    have none_ : added = [] := by
      rw [accepted'] at accepted
      exact List.self_eq_append_right.mp accepted
    subst none_
    apply sorted.add call.1 .main []
    · exact keeps sorted.wellFormed
    · exact accepted
    · exact sent
    · exact moved
    · simp
    · simp
    · intro q' m mem
      exact .inl (fewer q' m mem)

theorem Sorted.surroundings {w w' : Watched} (sorted : Sorted w) (moves : Surroundings w w') :
    Sorted w' ∧ Later w w' := by
  cases moves with
  | @elsewhere world same =>
      obtain ⟨erp, sqs, parameters, org, serverTimes, reads⟩ := world
      obtain rfl : sqs = w.world.sqs := same
      exact ⟨⟨sorted.wellFormed, sorted.recorded, sorted.routes, sorted.moved, sorted.main, sorted.deadLetters⟩,
        ⟨fun _ mem => mem, fun _ mem => mem, fun _ _ _ gone => gone, fun _ mem => mem⟩⟩
  | @move m here =>
      have apart : Queue.main ≠ Queue.deadLetters := by decide
      refine ⟨⟨sorted.wellFormed.move apart here, sorted.recorded, sorted.routes, ?_, ?_, ?_⟩,
        ⟨fun _ mem => mem, fun _ mem => List.mem_append_left _ mem, ?_, fun _ mem => mem⟩⟩
      · intro m' mem
        rcases List.mem_append.mp mem with mem | mem
        · exact sorted.moved m' mem
        · obtain rfl := List.mem_singleton.mp mem
          exact (sorted.main m' here).1
      · intro m' mem
        rcases (mem_move apart).mp mem with ⟨mem, other⟩ | ⟨never, -⟩
        · refine ⟨(sorted.main m' mem).1, ?_⟩
          rw [List.mem_append, List.mem_singleton, not_or]
          refine ⟨(sorted.main m' mem).2, ?_⟩
          rintro rfl
          exact other rfl rfl
        · cases never
      · intro m' mem
        rcases (mem_move apart).mp mem with ⟨mem, -⟩ | ⟨-, rfl⟩
        · exact (sorted.deadLetters m' mem).imp id (List.mem_append_left _)
        · exact .inr (List.mem_append_right _ List.mem_cons_self)
      · intro q m' known gone q' mem
        rcases (mem_move apart).mp mem with ⟨mem, -⟩ | ⟨-, rfl⟩
        · exact gone q' mem
        · exact gone _ here

/-- A world with every program in it. -/
def watching (S : Services) : Contract Watched (fun call : Component × Request => call.2.Answer) where
  answers := Watched.Answers S
  inv := Sorted
  rely := Later
  guar := Later
  rely_refl := Later.refl
  rely_trans := Later.trans

theorem Launches.keeps {S : Services} {rt : Runtime} {component : Component}
    {program : Prog (fun call : Component × Request => call.2.Answer) Unit}
    (launches : Launches rt component program) (w : Watched) :
    Keeps (watching S) (fun _ _ => True) program w := by
  apply launches.routed.keeps (fun _ _ guar => guar)
  intro w₁ call reply w₂ _ sorted routed answered
  exact Sorted.call sorted routed answered

/-! ### Runs -/

/-- The world before the first message. -/
def Watched.start (w : World) : Watched := ⟨w, [], []⟩

section Runs

variable {S : Services} {rt : Runtime} {w₀ : World} {s t : Watch}

theorem sound_reached (noMessages : w₀.sqs = State.empty) (reached : Reached S rt (.start w₀) s) :
    Pool.Sound (watching S) (fun _ _ _ => True) s := by
  have start : Sorted (.start w₀) := Sorted.start noMessages rfl rfl
  refine (Pool.sound_idle (C := watching S) start).reaches ?_ ?_ ?_ ?_ reached
  · intro _ _ _ _ _ _ _
    trivial
  · intro w w' sorted moves
    exact Sorted.surroundings sorted moves
  · intro w w' later
    exact later
  · intro component program w launches _
    exact launches.keeps w

theorem sorted_reached (noMessages : w₀.sqs = State.empty) (reached : Reached S rt (.start w₀) s) :
    Sorted s.world := (sound_reached noMessages reached).inv

/-- One step of some run: what may happen beside a command. -/
def Beside (S : Services) (rt : Runtime) (w₀ : World) (w w' : Watched) : Prop :=
  ∃ s t : Watch, Reached S rt (.start w₀) s ∧
    Pool.Step (Watched.Answers S) Surroundings (Launches rt) s t ∧ s.world = w ∧ t.world = w'

theorem later_of_beside (noMessages : w₀.sqs = State.empty) {w w' : Watched} (sorted : Sorted w)
    (moves : ReflTransGen (Beside S rt w₀) w w') : Sorted w' ∧ Later w w' := by
  induction moves with
  | refl => exact ⟨sorted, Later.refl w⟩
  | tail _ move ih =>
      obtain ⟨s, t, reached, step, rfl, rfl⟩ := move
      have sound := sound_reached noMessages reached
      have later : Later s.world t.world := sound.step_rely
        (fun _ _ sorted moves => Sorted.surroundings sorted moves) (fun _ _ later => later) step
      exact ⟨sorted_reached noMessages (reached.tail step), ih.2.trans later⟩

end Runs

end Relay.Delivery
