import Relay.Delivery.Triage
import Relay.Ingest.NoSkip

/-!
A default redrive in any run of the system.

A redrive without `--all` sends back only what SQS moved, and once it ends without
an error everything it received of that kind was sent, and SQS was asked to delete it.
The rest of the system goes on between its calls. Whether SQS did delete it depends on
the receipts: `Relay.Delivery.Redelivery`.
-/

namespace Relay.Delivery

open Relay.Effect Relay.Platform Relay.Python Relay.Worker Relay.Relayctl Relay.Sqs Relation

/-- An accepted message that went one of the two ways into the DLQ. -/
structure Told (w : Watched) (m : Message) : Prop where
  accepted : ∃ q, (q, m) ∈ w.world.sqs.accepted
  way : Parked w m ∨ m ∈ w.moved

theorem Sorted.told {w : Watched} (sorted : Sorted w) {m : Message}
    (here : m ∈ w.world.sqs.queue .deadLetters) : Told w m where
  accepted := sorted.wellFormed.queued _ m here
  way := (sorted.deadLetters m here).imp sorted.parked id

theorem Told.later {w w' : Watched} {m : Message} (told : Told w m) (later : Later w w') : Told w' m where
  accepted := told.accepted.imp fun _ mem => later.accepted _ mem
  way := told.way.imp (fun parked => ⟨later.sent _ parked.1, parked.2⟩) (later.moved m)

/-- No message that SQS moved was parked. -/
theorem Sorted.not_parked {w : Watched} (sorted : Sorted w) {m : Message} (moved : m ∈ w.moved) :
    ¬ Parked w m := fun parked => parked.reason (sorted.no_reason (sorted.moved m moved))

/-- A message without a reason was moved by SQS. -/
theorem Told.moved {w : Watched} {r : Received} (told : Told w r.message)
    (transient : (toDeadLetter r).permanent = false) : r.message ∈ w.moved := by
  rcases told.way with parked | moved
  · have permanent := permanent_iff.mpr parked.reason
    rw [transient] at permanent
    cases permanent
  · exact moved

/-! ### Collecting -/

theorem mem_collect_of_mem {d : DeadLetter} {batch : List Received} :
    ∀ {out : List DeadLetter}, d ∈ out → d ∈ collect out batch := by
  induction batch with
  | nil => exact fun mem => mem
  | cons r rest ih =>
      intro out mem
      unfold collect
      split
      · exact ih mem
      · exact ih (List.mem_append_left _ mem)

/-- What a batch adds is the first of its deliveries of a message that was not held. -/
theorem collect_cases {d : DeadLetter} {batch : List Received} :
    ∀ {out : List DeadLetter}, d ∈ collect out batch → d ∈ out ∨
      ∃ r, batch.find? (fun r' => r'.id = r.id) = some r ∧ d = toDeadLetter r ∧
        r.id ∉ out.map DeadLetter.messageId := by
  induction batch with
  | nil => exact fun mem => .inl mem
  | cons first rest ih =>
      intro out mem
      have skip : ∀ r : Received, r.id ≠ first.id →
          (first :: rest).find? (fun r' => r'.id = r.id) = rest.find? fun r' => r'.id = r.id := by
        intro r other
        rw [List.find?_cons_of_neg]
        simpa using other.symm
      unfold collect at mem
      split at mem
      · rename_i known
        refine (ih mem).imp_right ?_
        rintro ⟨r, found, same, fresh⟩
        have other : r.id ≠ first.id := by
          rintro eq
          exact fresh (eq ▸ known)
        exact ⟨r, (skip r other).trans found, same, fresh⟩
      · rename_i unknown
        rcases ih mem with old | ⟨r, found, same, fresh⟩
        · rcases List.mem_append.mp old with old | new
          · exact .inl old
          · exact .inr ⟨first, List.find?_cons_of_pos (by simp), List.mem_singleton.mp new, unknown⟩
        · rw [List.map_append, List.mem_append, not_or] at fresh
          have other : r.id ≠ first.id := by
            rintro eq
            exact fresh.2 (List.mem_singleton.mpr eq)
          exact .inr ⟨r, (skip r other).trans found, same, fresh.1⟩

theorem collect_distinct {batch : List Received} :
    ∀ {out : List DeadLetter}, (out.map DeadLetter.messageId).Nodup →
      ((collect out batch).map DeadLetter.messageId).Nodup := by
  induction batch with
  | nil => exact fun distinct => distinct
  | cons r rest ih =>
      intro out distinct
      unfold collect
      split
      · exact ih distinct
      · rename_i unknown
        refine ih ?_
        rw [List.map_append, List.nodup_append]
        refine ⟨distinct, by simp, ?_⟩
        rintro id mem id' here rfl
        rw [List.mem_singleton.mp here] at mem
        exact unknown mem

/-- Every message of a batch is held afterwards. -/
theorem collect_covers {batch : List Received} :
    ∀ {out : List DeadLetter}, ∀ r ∈ batch,
      r.message.messageId ∈ (collect out batch).map DeadLetter.messageId := by
  induction batch with
  | nil =>
      intro out r mem
      cases mem
  | cons first rest ih =>
      intro out r mem
      unfold collect
      rcases List.mem_cons.mp mem with rfl | mem
      · split
        · rename_i seen
          obtain ⟨d, held, same⟩ := List.mem_map.mp seen
          exact List.mem_map.mpr ⟨d, mem_collect_of_mem held, same⟩
        · have held : toDeadLetter r ∈ out ++ [toDeadLetter r] :=
            List.mem_append_right _ List.mem_cons_self
          exact List.mem_map.mpr ⟨_, mem_collect_of_mem held, rfl⟩
      · split <;> exact ih r mem

/-! ### Runs of an operator's command -/

section Operator

variable {S : Services} {rt : Runtime} {w₀ : World} {α : Type}
  {answers : (request : Request) → Watched → request.Answer → Watched → Prop}

theorem operates_later (noMessages : w₀.sqs = State.empty)
    (operator : ∀ request w reply w', answers request w reply w' →
      Watched.Answers S (.operator, request) w reply w')
    {program : Act α} {w w' : Watched} {made : List (Exchange Request.Answer)} {value : α}
    (calls : Calls (Routed .operator) program) (sorted : Sorted w)
    (run : Traced answers (Beside S rt w₀) program w made value w') : Sorted w' ∧ Later w w' := by
  induction run with
  | ret => exact ⟨sorted, Later.refl _⟩
  | call moves answered _ ih =>
      obtain ⟨sorted₁, later₁⟩ := later_of_beside noMessages sorted moves
      obtain ⟨sorted₂, later₂⟩ := Sorted.call sorted₁ calls.1 (operator _ _ _ _ answered)
      obtain ⟨sorted₃, later₃⟩ := ih (calls.2 _) sorted₂
      exact ⟨sorted₃, (later₁.trans later₂).trans later₃⟩

/-- The first of the receives that showed this message. -/
def firstReceive (seen : List Received) (messageId : String) : Option Received :=
  seen.find? fun r => r.id = messageId

/-- What the receive loop holds: every message received, once, as the first of its
receives showed it. -/
structure Holds (w : Watched) (seen : List Received) (msgs : List DeadLetter) : Prop where
  distinct : (msgs.map DeadLetter.messageId).Nodup
  shown : ∀ d ∈ msgs, ∃ r, firstReceive seen r.id = some r ∧ d = toDeadLetter r
  covers : ∀ r ∈ seen, r.message.messageId ∈ msgs.map DeadLetter.messageId
  told : ∀ r ∈ seen, Told w r.message ∧ r.receiptHandle.messageId = r.message.messageId

theorem mem_of_firstReceive {seen : List Received} {r : Received} {messageId : String}
    (first : firstReceive seen messageId = some r) : r ∈ seen ∧ r.id = messageId :=
  ⟨List.mem_of_find?_eq_some first, by simpa using List.find?_some first⟩

theorem firstReceive_append {seen batch : List Received} {r : Received} {messageId : String}
    (first : firstReceive seen messageId = some r) : firstReceive (seen ++ batch) messageId = some r := by
  rw [firstReceive, List.find?_append, show seen.find? (fun r => r.id = messageId) = some r from first]
  rfl

theorem firstReceive_fresh {seen batch : List Received} {messageId : String}
    (fresh : ∀ r ∈ seen, r.id ≠ messageId) :
    firstReceive (seen ++ batch) messageId = firstReceive batch messageId := by
  rw [firstReceive, List.find?_append, List.find?_eq_none.mpr (by simpa using fresh)]
  rfl

theorem Holds.later {w w' : Watched} {seen : List Received} {msgs : List DeadLetter}
    (holds : Holds w seen msgs) (later : Later w w') : Holds w' seen msgs where
  distinct := holds.distinct
  shown := holds.shown
  covers := holds.covers
  told := fun r mem => ⟨(holds.told r mem).1.later later, (holds.told r mem).2⟩

theorem Holds.batch {w : Watched} {seen batch : List Received} {msgs : List DeadLetter}
    (holds : Holds w seen msgs)
    (told : ∀ r ∈ batch, Told w r.message ∧ r.receiptHandle.messageId = r.message.messageId) :
    Holds w (seen ++ batch) (collect msgs batch) where
  distinct := collect_distinct holds.distinct
  shown := by
    intro d mem
    rcases collect_cases mem with old | ⟨r, found, same, fresh⟩
    · obtain ⟨r, first, same⟩ := holds.shown d old
      exact ⟨r, firstReceive_append first, same⟩
    · refine ⟨r, ?_, same⟩
      have other : ∀ r' ∈ seen, r'.id ≠ r.id := fun r' mem' eq => by
        have known := holds.covers r' mem'
        rw [show r'.message.messageId = r.id from eq] at known
        exact fresh known
      rw [firstReceive_fresh other]
      exact found
  covers := by
    intro r mem
    rcases List.mem_append.mp mem with old | new
    · obtain ⟨d, held, same⟩ := List.mem_map.mp (holds.covers r old)
      exact List.mem_map.mpr ⟨d, mem_collect_of_mem held, same⟩
    · exact collect_covers r new
  told := by
    intro r mem
    rcases List.mem_append.mp mem with old | new
    · exact holds.told r old
    · exact told r new

theorem peekLoop_holds (noMessages : w₀.sqs = State.empty)
    (operator : ∀ request w reply w', answers request w reply w' →
      Watched.Answers S (.operator, request) w reply w')
    {limit fuel empty : Nat} {out msgs : List DeadLetter} {err : Option String} {w w' : Watched}
    {made : List (Exchange Request.Answer)} {seen : List Received} (sorted : Sorted w)
    (holds : Holds w seen out)
    (run : Traced answers (Beside S rt w₀) (peekLoop limit fuel empty out) w made (some (msgs, err)) w') :
    Holds w' (seen ++ received made) msgs := by
  induction fuel generalizing empty out w made seen with
  | zero =>
      obtain ⟨-, done, -⟩ := Traced.of_ret run
      cases done
  | succ fuel ih =>
      rw [peekLoop] at run
      split at run
      · obtain ⟨w₁, reply, w₂, later, rfl, moves, answered, run⟩ := Traced.of_perform_bind run
        obtain ⟨sorted₁, later₁⟩ := later_of_beside noMessages sorted moves
        have silent : Silent (.receiveMessage .deadLetters 10) := trivial
        obtain ⟨sorted₂, later₂⟩ := Sorted.call sorted₁ (silent.routed .operator) (operator _ _ _ _ answered)
        have holds₂ := (holds.later later₁).later later₂
        cases reply with
        | error message =>
            obtain ⟨rfl, done, rfl⟩ := Traced.of_ret run
            cases done
            simpa [received, receivedBy] using holds₂
        | ok batch =>
            have told : ∀ r ∈ batch, Told w₂ r.message ∧
                r.receiptHandle.messageId = r.message.messageId := by
              intro r mem
              obtain ⟨⟨sqs, ⟨-, queued⟩, -⟩, -⟩ := operator _ _ _ _ answered
              obtain ⟨here, receipt⟩ := (queued batch rfl).2 r mem
              exact ⟨(sorted₁.told here).later later₂, receipt⟩
            have more : seen ++ received (⟨.receiveMessage .deadLetters 10, .ok batch⟩ :: later) =
                (seen ++ batch) ++ received later := (List.append_assoc _ _ _).symm
            rw [more]
            cases batch with
            | nil => exact ih sorted₂ (by simpa using holds₂) run
            | cons first rest => exact ih sorted₂ (holds₂.batch told) run
      · obtain ⟨rfl, done, rfl⟩ := Traced.of_ret run
        cases done
        have same : seen ++ received [] = seen := List.append_nil seen
        rw [same]
        have sorted_ := List.perm_insertionSort (fun a b : DeadLetter => a.sentAt ≤ b.sentAt) out
        refine ⟨(sorted_.map _).nodup_iff.mpr holds.distinct,
          fun d mem => holds.shown d ((List.mem_insertionSort _).mp mem), ?_, holds.told⟩
        intro r mem
        obtain ⟨d, held, id⟩ := List.mem_map.mp (holds.covers r mem)
        exact List.mem_map.mpr ⟨d, (List.mem_insertionSort _).mpr held, id⟩

/-- A default redrive sends only messages without a reason. -/
theorem redriveLoop_sends {World : Type} {answers : (request : Request) → World → request.Answer → World → Prop}
    {env : World → World → Prop} {result result' : RedriveResult} {keep msgs : List DeadLetter}
    {err : Option String} {w w' : World} {made : List (Exchange Request.Answer)}
    (run : Traced answers env (redriveLoop false false result keep msgs) w made (result', err) w')
    {body : String} {attributes : List (String × String)} {reply : Except String Unit}
    (mem : ⟨.sendMessage .main body attributes, reply⟩ ∈ made) :
    ∃ d ∈ msgs, d.permanent = false ∧ body = d.body ∧ attributes = redriveAttributes d := by
  have released : ∀ {kept : List DeadLetter} {value : RedriveResult × Option String} {w w' : World}
      {made : List (Exchange Request.Answer)},
      Traced answers env (release kept >>= fun _ => (pure value : Act _)) w made (result', err) w' →
      ⟨.sendMessage .main body attributes, reply⟩ ∉ made := by
    intro kept value w w' made run mem
    have silent := ((calls_release kept).bind fun _ => Calls.ret value).exchanges run _ mem
    exact silent.elim
  induction msgs generalizing result keep w made with
  | nil => exact absurd mem (released run)
  | cons m rest ih =>
      rw [redriveLoop] at run
      split at run
      · obtain ⟨d, here, found⟩ := ih run mem
        exact ⟨d, List.mem_cons_of_mem _ here, found⟩
      · rename_i transient
        have transient : m.permanent = false := by simpa using transient
        rw [if_neg (by simp)] at run
        obtain ⟨w₁, sent, w₂, later, rfl, -, -, run⟩ := Traced.of_perform_bind run
        rcases List.mem_cons.mp mem with same | inLater
        · cases same
          exact ⟨m, List.mem_cons_self, transient, rfl, rfl⟩
        cases sent with
        | error message => exact absurd inLater (released run)
        | ok value =>
            obtain ⟨w₃, deleted, w₄, last, rfl, -, -, run⟩ := Traced.of_perform_bind run
            rcases List.mem_cons.mp inLater with same | inLast
            · cases same
            cases deleted with
            | error message => exact absurd inLast (released run)
            | ok value =>
                obtain ⟨d, here, found⟩ := ih run inLast
                exact ⟨d, List.mem_cons_of_mem _ here, found⟩

/-- What a default redrive without an error did with a message that it held. -/
structure Cleared (made : List (Exchange Request.Answer)) (result : RedriveResult) (d : DeadLetter) : Prop where
  moved : d ∈ result.moved
  sent : ⟨.sendMessage .main d.body (redriveAttributes d), .ok ()⟩ ∈ made
  deleted : ⟨.deleteMessage .deadLetters d.receipt, .ok ()⟩ ∈ made

theorem Cleared.later {made : List (Exchange Request.Answer)} {result : RedriveResult} {d : DeadLetter}
    (cleared : Cleared made result d) (before : List (Exchange Request.Answer)) :
    Cleared (before ++ made) result d where
  moved := cleared.moved
  sent := List.mem_append_right _ cleared.sent
  deleted := List.mem_append_right _ cleared.deleted

theorem redriveLoop_clears {World : Type} {answers : (request : Request) → World → request.Answer → World → Prop}
    {env : World → World → Prop} {result result' : RedriveResult} {keep msgs : List DeadLetter} {w w' : World}
    {made : List (Exchange Request.Answer)}
    (run : Traced answers env (redriveLoop false false result keep msgs) w made (result', none) w') :
    result.moved ⊆ result'.moved ∧ ∀ d ∈ msgs, d.permanent = false → Cleared made result' d := by
  induction msgs generalizing result keep w made with
  | nil =>
      obtain ⟨done, w₁, before, after, rfl, -, run⟩ := Traced.of_bind run
      obtain ⟨rfl, ended, rfl⟩ := Traced.of_ret run
      cases ended
      exact ⟨List.Subset.refl _, by simp⟩
  | cons m rest ih =>
      rw [redriveLoop] at run
      split at run
      · rename_i permanent
        have permanent : m.permanent = true := by simpa using permanent
        obtain ⟨kept, others⟩ := ih run
        refine ⟨kept, ?_⟩
        intro d mem transient
        rcases List.mem_cons.mp mem with rfl | mem
        · rw [permanent] at transient
          cases transient
        · exact others d mem transient
      · rw [if_neg (by simp)] at run
        obtain ⟨w₁, sent, w₂, later, rfl, -, -, run⟩ := Traced.of_perform_bind run
        cases sent with
        | error message =>
            obtain ⟨done, w₃, before, after, -, -, run⟩ := Traced.of_bind run
            obtain ⟨-, ended, -⟩ := Traced.of_ret run
            cases ended
        | ok value =>
            obtain ⟨w₃, deleted, w₄, later, rfl, -, -, run⟩ := Traced.of_perform_bind run
            cases deleted with
            | error message =>
                obtain ⟨done, w₅, before, after, -, -, run⟩ := Traced.of_bind run
                obtain ⟨-, ended, -⟩ := Traced.of_ret run
                cases ended
            | ok value =>
                obtain ⟨kept, others⟩ := ih run
                refine ⟨fun d mem => kept (List.mem_append_left _ mem), ?_⟩
                intro d mem transient
                rcases List.mem_cons.mp mem with rfl | mem
                · exact ⟨kept (List.mem_append_right _ List.mem_cons_self), by simp, by simp⟩
                · exact (others d mem transient).later [_, _]

/-- A default redrive puts back no message that the worker parked, and leaves
behind none that SQS moved, if it ends without an error. -/
structure Triages (made : List (Exchange Request.Answer)) (result : Option (RedriveResult × Option String))
    (w' : Watched) : Prop where
  sends : ∀ body attributes reply, ⟨.sendMessage .main body attributes, reply⟩ ∈ made →
    ∃ r ∈ received made, body = r.message.body ∧ attributes = redriveAttributes (toDeadLetter r) ∧
      r.message ∈ w'.moved ∧ ¬ Parked w' r.message
  clears : ∀ res, result = some (res, none) → ∀ r ∈ received made, r.message ∈ w'.moved →
    ∃ d, d.messageId = r.message.messageId ∧ Cleared made res d

theorem received_of_disposes {made : List (Exchange Request.Answer)}
    (disposes : ∀ exchange ∈ made, Disposes exchange.1) : received made = [] := by
  rw [received, List.flatMap_eq_nil_iff]
  rintro ⟨request, reply⟩ mem
  have disposes := disposes _ mem
  cases request with
  | receiveMessage q most => exact disposes.elim
  | _ => rfl

/-- The loop of a redrive receives nothing. -/
theorem received_redrive {World : Type} {answers : (request : Request) → World → request.Answer → World → Prop}
    {env : World → World → Prop} {all dryRun : Bool} {result : RedriveResult} {keep msgs : List DeadLetter}
    {done : RedriveResult × Option String} {w w' : World} {after : List (Exchange Request.Answer)}
    (before : List (Exchange Request.Answer))
    (looped : Traced answers env (redriveLoop all dryRun result keep msgs) w after done w') :
    received (before ++ after) = received before := by
  rw [received_append, received_of_disposes fun exchange mem =>
    (disposes_redriveLoop _ _ _ _ _).exchanges looped exchange mem, List.append_nil]

/-- The two parts of a redrive. -/
theorem redrive_cases {World : Type} {answers : (request : Request) → World → request.Answer → World → Prop}
    {env : World → World → Prop} {fuel : Nat} {result : Option (RedriveResult × Option String)}
    {w w' : World} {made : List (Exchange Request.Answer)}
    (run : Traced answers env (redrive fuel false false) w made result w') :
    (∃ msgs res err w₁ before after, made = before ++ after ∧ result = some (res, err) ∧
      Traced answers env (peek fuel 1000) w before (some (msgs, none)) w₁ ∧
      Traced answers env (redriveLoop false false ⟨[], []⟩ [] msgs) w₁ after (res, err) w') ∨
    (∀ res, result ≠ some (res, none)) ∧ ∀ exchange ∈ made, Silent exchange.1 := by
  obtain ⟨found, w₁, before, after, rfl, peeked, run⟩ := Traced.of_bind run
  have quiet := (silent_of_harmless (calls_peekLoop 1000 fuel 0 [])).exchanges peeked
  rcases found with _ | ⟨msgs, _ | err⟩
  · obtain ⟨rfl, rfl, -⟩ := Traced.of_ret run
    refine .inr ⟨by simp, ?_⟩
    simpa using quiet
  · obtain ⟨⟨res, err⟩, w₂, middle, last, rfl, looped, run⟩ := Traced.of_bind run
    obtain ⟨rfl, rfl, rfl⟩ := Traced.of_ret run
    refine .inl ⟨msgs, res, err, w₁, before, middle, by simp, rfl, peeked, looped⟩
  · have loud := ((silent_of_harmless (calls_release msgs)).bind fun _ => Calls.ret _).exchanges run
    obtain ⟨done, w₂, middle, last, rfl, -, run⟩ := Traced.of_bind run
    obtain ⟨rfl, rfl, -⟩ := Traced.of_ret run
    refine .inr ⟨by simp, ?_⟩
    intro exchange mem
    rcases List.mem_append.mp mem with mem | mem
    · exact quiet exchange mem
    · exact loud exchange mem

/-- What a redrive held when its peek ended without an error: every message that it
received and SQS moved, by the first of its receives. -/
theorem Holds.moved {w : Watched} {seen : List Received} {msgs : List DeadLetter} (holds : Holds w seen msgs)
    (sorted : Sorted w) {r : Received} (mem : r ∈ seen) {w' : Watched} (sorted' : Sorted w')
    (moved : r.message ∈ w'.moved) :
    ∃ first, firstReceive seen r.message.messageId = some first ∧ first.message = r.message ∧
      toDeadLetter first ∈ msgs ∧ (toDeadLetter first).permanent = false ∧ r.message ∈ w.moved := by
  obtain ⟨d, held, same⟩ := List.mem_map.mp (holds.covers r mem)
  obtain ⟨first, found, rfl⟩ := holds.shown d held
  have same : first.id = r.message.messageId := same
  obtain ⟨⟨q, accepted⟩, -⟩ := (holds.told r mem).1
  obtain ⟨⟨q', accepted'⟩, -⟩ := (holds.told first (mem_of_firstReceive found).1).1
  have one : first.message = r.message := sorted.wellFormed.unique accepted' accepted same
  have none_ := sorted'.no_reason (sorted'.moved _ moved)
  have transient : ∀ r' : Received, r'.message = r.message → (toDeadLetter r').permanent = false := by
    intro r' same
    rw [← Bool.not_eq_true, permanent_iff, not_not, same]
    exact none_
  exact ⟨first, same ▸ found, one, held, transient first one, (holds.told r mem).1.moved (transient r rfl)⟩

theorem redrive_triages (noMessages : w₀.sqs = State.empty)
    (operator : ∀ request w reply w', answers request w reply w' →
      Watched.Answers S (.operator, request) w reply w')
    {fuel : Nat} {result : Option (RedriveResult × Option String)} {w w' : Watched}
    {made : List (Exchange Request.Answer)} (sorted : Sorted w)
    (run : Traced answers (Beside S rt w₀) (redrive fuel false false) w made result w') :
    Triages made result w' := by
  rcases redrive_cases run with
    ⟨msgs, res, err, w₁, before, after, rfl, rfl, peeked, looped⟩ | ⟨failed, silent⟩
  · obtain ⟨sorted₁, later₁⟩ := operates_later noMessages operator
      (routed_of_harmless .operator (calls_peekLoop _ _ _ _)) sorted peeked
    obtain ⟨sorted', later'⟩ := operates_later noMessages operator
      (calls_redriveLoop _ _ _ _ _) sorted₁ looped
    have none_ : Holds w [] [] := ⟨by simp, by simp, by simp, by simp⟩
    have holds := peekLoop_holds noMessages operator sorted none_ peeked
    rw [List.nil_append] at holds
    have onlyPeeked := received_redrive before looped
    constructor
    · intro body attributes reply mem
      rcases List.mem_append.mp mem with mem | mem
      · exact ((calls_peekLoop 1000 fuel 0 []).exchanges peeked _ mem).elim
      · obtain ⟨d, held, transient, rfl, rfl⟩ := redriveLoop_sends looped mem
        obtain ⟨r, first, rfl⟩ := holds.shown d held
        have here := (mem_of_firstReceive first).1
        have moved := later'.moved _ ((holds.told r here).1.moved transient)
        exact ⟨r, onlyPeeked ▸ here, rfl, rfl, moved, sorted'.not_parked moved⟩
    · intro res' same r mem moved
      obtain ⟨rfl, rfl⟩ := Prod.mk.inj (Option.some.inj same)
      obtain ⟨first, found, -, held, transient, -⟩ :=
        holds.moved sorted₁ (onlyPeeked ▸ mem) sorted' moved
      have cleared := (redriveLoop_clears looped).2 _ held transient
      exact ⟨_, (mem_of_firstReceive found).2, cleared.later _⟩
  · constructor
    · intro body attributes reply mem
      exact (silent _ mem).elim
    · intro res same
      exact absurd same (failed res)

end Operator

/-! ### An event that SQS moved -/

theorem answers_grow {S : Services} {request : Request} {w w' : World} {reply : request.Answer}
    (answered : S.Answers request w reply w') :
    ∃ added, w'.sqs.accepted = w.sqs.accepted ++ added := by
  rcases answers_sqs answered with same | ⟨q, entries, stored, -⟩ | ⟨q, receipts, deleted, -⟩
  · exact ⟨[], by rw [same, List.append_nil]⟩
  · obtain ⟨ms, accepted, -⟩ := stored.accepted
    exact ⟨_, accepted⟩
  · exact ⟨[], by rw [deleted.shrinks.1, List.append_nil]⟩

/-- A program that runs undisturbed runs so in the watched world. -/
theorem watched_exec {S : Services} {α : Type} {program : Act α} {w w' : World} {value : α}
    (run : Exec S.Answers (fun _ _ => False) program w value w') (component : Component) :
    ∀ sent moved, ∃ sent', Exec (Watched.Answers S) Surroundings (program.tag component)
      ⟨w, sent, moved⟩ value ⟨w', sent', moved⟩ := by
  induction run with
  | ret => exact fun sent moved => ⟨sent, .ret⟩
  | @call request next w w₁ w₂ w₃ reply value moves answered _ ih =>
      intro sent moved
      obtain rfl : w = w₁ := by
        cases moves with
        | refl => rfl
        | tail _ move => exact move.elim
      obtain ⟨added, accepted⟩ := answers_grow answered
      obtain ⟨sent', rest⟩ := ih (sent ++ added.map fun entry => (component, entry)) moved
      have watched : Watched.Answers S (component, request) ⟨w, sent, moved⟩ reply
          ⟨w₂, sent ++ added.map fun entry => (component, entry), moved⟩ :=
        ⟨answered, rfl, added, accepted, rfl⟩
      exact ⟨sent', .call .refl watched rest⟩

end Relay.Delivery
