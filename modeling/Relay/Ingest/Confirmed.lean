import Relay.Effect.Trace
import Relay.Ingest.Sends

/-!
What the publisher's count says.

The count that `publish` returns is the length of a confirmed prefix: the queue
accepted the events before it, and the event at it was refused (`ConfirmedPrefix`). The
induction is on the events that are left, one batch a step.
-/

namespace Relay.Ingest

open Relay.Json Relay.Effect Relay.Platform Relay.Events Relay.Sqs Relay.Data Relation

abbrev Call := Exchange Request.Answer

/-- The batch send of a chunk. -/
def sendOf (chunk : List Event) : Request := .sendMessageBatch .main (chunk.mapIdx entry)

/-- A batch send that returned with no failed entry. -/
def Clean : Call → Prop
  | ⟨.sendMessageBatch _ _, .ok out⟩ => out.failed = []
  | _ => False

/-- A batch send that failed or listed its entry `i` as failed. -/
def Refused (i : Nat) : Call → Prop
  | ⟨.sendMessageBatch _ _, .error _⟩ => True
  | ⟨.sendMessageBatch _ _, .ok out⟩ => toString i ∈ out.failed.map BatchFailure.id
  | _ => False

/-- The entries listed as failed are the request's. -/
def Reported : Call → Prop
  | ⟨.sendMessageBatch _ entries, .ok out⟩ => ∀ f ∈ out.failed, f.id ∈ entries.map Entry.id
  | _ => True

/-- The queue accepted these events in their order. -/
def Accepts (evs : List Event) (w w' : World) : Prop :=
  ∃ ms later, w'.sqs.accepted = w.sqs.accepted ++ later ∧ List.Forall₂ Carries evs ms ∧
    (ms.map fun m => (Queue.main, m)).Sublist later

/-- `n` is the length of a confirmed prefix of the events, offered with these calls. -/
structure ConfirmedPrefix (evs : List Event) (calls : List Call) (n : Nat) (err : Option PublishError)
    (w w' : World) : Prop where
  bound : n ≤ evs.length
  accepted : Accepts (evs.take n) w w'
  complete : err = none ↔ n = evs.length
  /-- The batches are offered in order, from the first one. -/
  offered : ∃ m, calls.map Sigma.fst = ((batches 10 evs).take m).map sendOf
  sized : ∀ call ∈ calls, ∀ queue entries, call.1 = .sendMessageBatch queue entries →
    entries.length ≤ 10 ∧ (entries.map Entry.id).Nodup
  /-- No batch is sent after one that failed. -/
  stops : calls.Pairwise fun call _ => Clean call
  refused : err ≠ none → ∃ call, calls[n / 10]? = some call ∧ Refused (n % 10) call
  first : ∀ i < n, ∀ call, calls[i / 10]? = some call → ¬ Refused (i % 10) call

/-! ### The queue -/

/-- What is accepted stays recorded, whatever else is sent. -/
def Grows (w w' : World) : Prop := w.sqs.accepted <+: w'.sqs.accepted

theorem Grows.star {env : World → World → Prop} (grows : ∀ w w', env w w' → Grows w w') {w w' : World}
    (moves : ReflTransGen env w w') : Grows w w' := by
  induction moves with
  | refl => exact List.prefix_refl _
  | tail _ move ih => exact ih.trans (grows _ _ move)

theorem Accepts.nil {w w' : World} (grows : Grows w w') : Accepts [] w w' := by
  obtain ⟨later, same⟩ := grows
  exact ⟨[], later, same.symm, .nil, List.nil_sublist _⟩

theorem Accepts.before {evs : List Event} {w w₁ w' : World} (grows : Grows w w₁)
    (accepts : Accepts evs w₁ w') : Accepts evs w w' := by
  obtain ⟨between, same⟩ := grows
  obtain ⟨ms, later, accepted, carries, sub⟩ := accepts
  refine ⟨ms, between ++ later, ?_, carries, sub.trans (List.sublist_append_right _ _)⟩
  rw [accepted, ← same, List.append_assoc]

theorem Accepts.append {first rest : List Event} {w w₁ w' : World} (start : Accepts first w w₁)
    (others : Accepts rest w₁ w') : Accepts (first ++ rest) w w' := by
  obtain ⟨ms, later, accepted, carries, sub⟩ := start
  obtain ⟨ms', later', accepted', carries', sub'⟩ := others
  refine ⟨ms ++ ms', later ++ later', ?_, List.rel_append carries carries', ?_⟩
  · rw [accepted', accepted, List.append_assoc]
  · rw [List.map_append]
    exact sub.append sub'

theorem sent_grows {entries : List Entry} {w : World} {reply : Except String BatchReply} {sqs : State Queue}
    (answered : SendsBatch .main entries w.sqs reply sqs) : Grows w { w with sqs := sqs } := by
  obtain ⟨stored, -, sent, -⟩ := answered
  obtain ⟨ms, accepted, -⟩ := sent.accepted
  exact ⟨_, accepted.symm⟩

/-! ### One batch -/

theorem toString_injective : Function.Injective (toString : Nat → String) := by
  intro i j same
  rw [Nat.toString_eq_ofList_toDigits, Nat.toString_eq_ofList_toDigits] at same
  have digits : Nat.toDigits 10 i = Nat.toDigits 10 j := by simpa using congrArg String.toList same
  rw [← Nat.ofDigitChars_ten_toDigits (n := i), digits, Nat.ofDigitChars_ten_toDigits]

theorem entry_ids (chunk : List Event) :
    (chunk.mapIdx entry).map Entry.id = (List.range chunk.length).map toString := by
  apply List.ext_getElem
  · simp
  · intro i _ _
    simp [entry]

theorem mem_entry_ids {chunk : List Event} {id : String} :
    id ∈ (chunk.mapIdx entry).map Entry.id ↔ ∃ j < chunk.length, id = toString j := by
  rw [entry_ids]
  simp [eq_comm]

theorem sendOf_sized {chunk : List Event} (short : chunk.length ≤ 10) {queue : Queue}
    {entries : List Entry} (same : sendOf chunk = .sendMessageBatch queue entries) :
    entries.length ≤ 10 ∧ (entries.map Entry.id).Nodup := by
  cases same
  constructor
  · rw [List.length_mapIdx]
    exact short
  · rw [entry_ids]
    exact List.nodup_range.map toString_injective

/-- The least index that failed is that of a failed entry, if every failed one is an entry. -/
theorem firstFailed_reported (bound : Nat) (first : BatchFailure) {failed : List BatchFailure}
    (reported : ∀ f ∈ failed, ∃ j < 2 ^ 63, f.id = toString j) :
    ∃ (i : Nat) (f : BatchFailure), firstFailed bound first failed = .ok ((i : Int), f) ∧
      (i = bound ∨ toString i ∈ failed.map BatchFailure.id) := by
  induction failed generalizing bound first with
  | nil => exact ⟨bound, first, rfl, .inl rfl⟩
  | cons g rest ih =>
      obtain ⟨j, small, same⟩ := reported g List.mem_cons_self
      have others := fun f mem => reported f (List.mem_cons_of_mem _ mem)
      have parsed : atoi g.id = some (j : Int) := by rw [same, atoi_toString small]
      unfold firstFailed
      simp only [parsed, Nat.cast_lt]
      by_cases smaller : j < bound
      · rw [if_pos smaller]
        obtain ⟨i, f, found, least⟩ := ih j g others
        refine ⟨i, f, found, .inr ?_⟩
        rcases least with rfl | mem
        · exact List.mem_cons.mpr (.inl same.symm)
        · exact List.mem_cons_of_mem _ mem
      · rw [if_neg smaller]
        obtain ⟨i, f, found, least⟩ := ih bound first others
        exact ⟨i, f, found, least.imp_right (List.mem_cons_of_mem _)⟩

/-- What the loop over the failed entries finds: the first event that was refused. -/
theorem firstFailed_first {chunk : List Event} (short : chunk.length ≤ 10) {out : BatchReply}
    (first : BatchFailure) (some_ : out.failed ≠ [])
    (reported : ∀ f ∈ out.failed, f.id ∈ (chunk.mapIdx entry).map Entry.id) :
    ∃ (i : Nat) (f : BatchFailure), firstFailed chunk.length first out.failed = .ok ((i : Int), f) ∧
      i < chunk.length ∧ toString i ∈ out.failed.map BatchFailure.id ∧
      ∀ j < i, toString j ∉ out.failed.map BatchFailure.id := by
  have named : ∀ f ∈ out.failed, ∃ j < chunk.length, f.id = toString j := fun f mem =>
    mem_entry_ids.mp (reported f mem)
  have small : ∀ f ∈ out.failed, ∃ j < 2 ^ 63, f.id = toString j := by
    intro f mem
    obtain ⟨j, inside, same⟩ := named f mem
    exact ⟨j, by omega, same⟩
  obtain ⟨i, f, found, least⟩ := firstFailed_reported chunk.length first small
  have minimal : ∀ j < 2 ^ 63, toString j ∈ out.failed.map BatchFailure.id → i ≤ j := by
    intro j small mem
    obtain ⟨g, memG, same⟩ := List.mem_map.mp mem
    have le := (firstFailed_le found).2 g memG j (by rw [same, atoi_toString small])
    omega
  have inside : i < chunk.length := by
    obtain ⟨g, memG⟩ := List.exists_mem_of_ne_nil _ some_
    obtain ⟨j, inside, same⟩ := named g memG
    have le := minimal j (by omega) (List.mem_map.mpr ⟨g, memG, same⟩)
    omega
  refine ⟨i, f, found, inside, ?_, fun j before mem => ?_⟩
  · rcases least with rfl | mem
    · exact absurd inside (lt_irrefl _)
    · exact mem
  · have le := minimal j (by omega) mem
    omega

theorem mapIdx_take (chunk : List Event) (n : Nat) :
    (chunk.take n).mapIdx entry = (chunk.mapIdx entry).take n := by
  apply List.ext_getElem?
  intro i
  rw [List.getElem?_mapIdx, List.getElem?_take, List.getElem?_take, List.getElem?_mapIdx]
  split <;> rfl

/-- The entries before the first failed one were accepted in their order. -/
theorem accepts_take {chunk : List Event} {w w' : World} {out : BatchReply}
    (answered : SendsBatch .main (chunk.mapIdx entry) w.sqs (.ok out) w'.sqs) {n : Nat}
    (before : ∀ j < n, toString j ∉ out.failed.map BatchFailure.id) : Accepts (chunk.take n) w w' := by
  obtain ⟨stored, -, sent, reported⟩ := answered
  obtain ⟨ms, accepted, all⟩ := sent.accepted
  have head : (chunk.take n).mapIdx entry = ((chunk.mapIdx entry).take n).filter out.accepts := by
    rw [mapIdx_take, eq_comm, List.filter_eq_self]
    intro e mem
    obtain ⟨j, inside, rfl⟩ := List.getElem_of_mem mem
    rw [List.length_take] at inside
    have := before j (by omega)
    simpa [BatchReply.accepts, entry] using this
  have split : stored = (chunk.take n).mapIdx entry ++ ((chunk.mapIdx entry).drop n).filter out.accepts := by
    rw [(reported out rfl).1, head, ← List.filter_append, List.take_append_drop]
  rw [split] at all
  have first := (List.forall₂_take_append _ _ _ all.flip).flip
  refine ⟨_, _, accepted, forall₂_carries (n := 0) first, ?_⟩
  exact (List.take_sublist _ ms).map _

/-! ### All the batches -/

theorem confirmed_nil {w w' : World} (grows : Grows w w') : ConfirmedPrefix [] [] 0 none w w' where
  bound := le_refl _
  accepted := Accepts.nil grows
  complete := by simp
  offered := ⟨0, rfl⟩
  sized := by simp
  stops := .nil
  refused := by simp
  first := by simp

/-- A batch send that stops the loop at its event `i`. -/
theorem confirmed_stop {evs : List Event} (some_ : evs ≠ []) {reply : Except String BatchReply} {i : Nat}
    (inside : i < (evs.take 10).length) {err : PublishError} {w w' : World}
    (accepted : Accepts ((evs.take 10).take i) w w')
    (refused : Refused i ⟨sendOf (evs.take 10), reply⟩)
    (first : ∀ j < i, ¬ Refused j ⟨sendOf (evs.take 10), reply⟩) :
    ConfirmedPrefix evs [⟨sendOf (evs.take 10), reply⟩] i (some err) w w' := by
  have bounds : i < 10 ∧ i < evs.length := by
    rw [List.length_take] at inside
    omega
  constructor
  · exact bounds.2.le
  · rwa [List.take_take, Nat.min_eq_left bounds.1.le] at accepted
  · simpa using Nat.ne_of_lt bounds.2
  · exact ⟨1, by rw [batches_of_ne_nil (by omega) some_]; rfl⟩
  · intro call mem queue entries same
    obtain rfl := List.mem_singleton.mp mem
    exact sendOf_sized (List.length_take_le _ _) same
  · exact List.pairwise_singleton _ _
  · intro _
    rw [Nat.div_eq_of_lt bounds.1, Nat.mod_eq_of_lt bounds.1]
    exact ⟨_, rfl, refused⟩
  · intro j before call here
    rw [Nat.div_eq_of_lt (by omega : j < 10)] at here
    cases here
    rw [Nat.mod_eq_of_lt (by omega : j < 10)]
    exact first j before

theorem not_refused_of_clean {call : Call} (clean : Clean call) (i : Nat) : ¬ Refused i call := by
  obtain ⟨request, reply⟩ := call
  cases request with
  | sendMessageBatch queue entries =>
      cases reply with
      | error message => cases clean
      | ok out =>
          have none_ : out.failed = [] := clean
          simp [Refused, none_]
  | _ => cases clean

/-- A clean batch before the confirmed prefix of the events after it. -/
theorem ConfirmedPrefix.cons {evs : List Event} {call : Call} {calls : List Call} {n : Nat}
    {err : Option PublishError} {w w₁ w' : World} (long : 10 ≤ evs.length)
    (request : call.1 = sendOf (evs.take 10)) (clean : Clean call) (accepted : Accepts (evs.take 10) w w₁)
    (rest : ConfirmedPrefix (evs.drop 10) calls n err w₁ w') : ConfirmedPrefix evs (call :: calls) (n + 10) err w w' := by
  have left : (evs.drop 10).length = evs.length - 10 := List.length_drop
  have bound := rest.bound
  constructor
  · omega
  · have split : evs.take (n + 10) = evs.take 10 ++ (evs.drop 10).take n := by
      rw [Nat.add_comm, List.take_add]
    rw [split]
    exact accepted.append rest.accepted
  · rw [rest.complete]
    omega
  · obtain ⟨m, offered⟩ := rest.offered
    have some_ : evs ≠ [] := by
      rintro rfl
      simp at long
    refine ⟨m + 1, ?_⟩
    rw [batches_of_ne_nil (by omega) some_, List.take_succ_cons, List.map_cons, List.map_cons, request,
      offered]
  · intro other mem queue entries same
    rcases List.mem_cons.mp mem with rfl | mem
    · rw [request] at same
      exact sendOf_sized (List.length_take_le _ _) same
    · exact rest.sized other mem queue entries same
  · exact List.pairwise_cons.mpr ⟨fun _ _ => clean, rest.stops⟩
  · intro failed
    obtain ⟨last, here, refused⟩ := rest.refused failed
    refine ⟨last, ?_, ?_⟩
    · rw [Nat.add_div_right n (by omega)]
      exact here
    · rwa [Nat.add_mod_right]
  · intro i before other here
    by_cases early : i < 10
    · rw [Nat.div_eq_of_lt early] at here
      cases here
      exact not_refused_of_clean clean _
    · obtain ⟨j, rfl⟩ := Nat.exists_eq_add_of_le' (Nat.not_lt.mp early)
      rw [Nat.add_div_right j (by omega)] at here
      rw [Nat.add_mod_right]
      exact rest.first j (by omega) other here

/-- A clean batch of all the events. -/
theorem confirmed_last {evs : List Event} {call : Call} {w w' : World} (some_ : evs ≠ [])
    (short : evs.length ≤ 10) (request : call.1 = sendOf (evs.take 10)) (clean : Clean call)
    (accepted : Accepts (evs.take 10) w w') : ConfirmedPrefix evs [call] evs.length none w w' := by
  constructor
  · exact le_refl _
  · rw [List.take_length]
    rwa [List.take_of_length_le short] at accepted
  · simp
  · refine ⟨1, ?_⟩
    rw [batches_of_ne_nil (by omega) some_, List.take_succ_cons, List.map_cons, request]
    rfl
  · intro other mem queue entries same
    obtain rfl := List.mem_singleton.mp mem
    rw [request] at same
    exact sendOf_sized (List.length_take_le _ _) same
  · exact List.pairwise_singleton _ _
  · simp
  · intro i before other here
    obtain rfl := List.mem_singleton.mp (List.mem_of_getElem? here)
    exact not_refused_of_clean clean _

variable {S : Services} {env : World → World → Prop}

theorem ConfirmedPrefix.after {evs : List Event} {calls : List Call} {n : Nat} {err : Option PublishError}
    {w w₁ w' : World} (grows : Grows w w₁) (confirmed : ConfirmedPrefix evs calls n err w₁ w') :
    ConfirmedPrefix evs calls n err w w' := { confirmed with accepted := confirmed.accepted.before grows }

theorem confirmed_publishFrom (grows : ∀ w w', env w w' → Grows w w') (total start : Nat)
    {evs : List Event} (left : total = start + evs.length) {calls : List Call} {k : Int}
    {err : Option PublishError} {w w' : World}
    (run : Traced S.Answers env (publishFrom total start (batches 10 evs)) w calls (k, err) w')
    (reported : ∀ call ∈ calls, Reported call) :
    ∃ n : Nat, k = (start + n : Nat) ∧ ConfirmedPrefix evs calls n err w w' := by
  induction evs using batches_induction 10 (by omega) generalizing start calls w with
  | nil =>
      obtain ⟨rfl, same, rfl⟩ := Traced.of_ret run
      cases same
      exact ⟨0, by rw [left]; rfl, confirmed_nil (List.prefix_refl _)⟩
  | batch evs some_ ih =>
      rw [batches_of_ne_nil (by omega) some_, publishFrom] at run
      obtain ⟨w₁, reply, w₂, later, rfl, moves, answered, run⟩ := Traced.of_perform_bind run
      obtain ⟨sqs, answered, rfl⟩ := answered
      have before := Grows.star grows moves
      have nonempty : 0 < (evs.take 10).length := by
        rw [List.length_take]
        have := List.length_pos_of_ne_nil some_
        omega
      cases reply with
      | error message =>
          obtain ⟨rfl, same, rfl⟩ := Traced.of_ret run
          cases same
          refine ⟨0, rfl, ConfirmedPrefix.after before (confirmed_stop some_ nonempty ?_ trivial (by simp))⟩
          exact Accepts.nil (sent_grows answered)
      | ok out =>
          cases failed : out.failed with
          | nil =>
              simp only [failed] at run
              have clean : Clean ⟨sendOf (evs.take 10), .ok out⟩ := failed
              have accepted : Accepts (evs.take 10) w₁ { w₁ with sqs := sqs } := by
                have all : Accepts ((evs.take 10).take 10) w₁ { w₁ with sqs := sqs } :=
                  accepts_take answered (by simp [failed])
                rwa [List.take_take, Nat.min_self] at all
              by_cases short : evs.length ≤ 10
              · rw [List.drop_of_length_le short] at run
                obtain ⟨rfl, same, rfl⟩ := Traced.of_ret run
                cases same
                refine ⟨evs.length, by rw [left], ConfirmedPrefix.after before ?_⟩
                exact confirmed_last some_ short rfl clean accepted
              · have fewer : (evs.drop 10).length = evs.length - 10 := List.length_drop
                obtain ⟨n, same, confirmed⟩ := ih (start + 10) (by omega) run
                  fun call mem => reported call (List.mem_cons_of_mem _ mem)
                refine ⟨n + 10, by rw [same]; congr 1; omega, ConfirmedPrefix.after before ?_⟩
                exact confirmed.cons (by omega) rfl clean accepted
          | cons first others =>
              obtain ⟨i, f, found, inside, refused, least⟩ :=
                firstFailed_first (List.length_take_le 10 evs) first (by simp [failed])
                  (reported _ List.mem_cons_self)
              rw [failed] at found
              simp only [failed, found] at run
              obtain ⟨rfl, same, rfl⟩ := Traced.of_ret run
              cases same
              refine ⟨i, by push_cast; rfl, ConfirmedPrefix.after before ?_⟩
              exact confirmed_stop some_ inside (accepts_take answered least) refused least

/-- For every list of events and whatever the batch sends answer, the publisher's count
is the length of a confirmed prefix. -/
theorem publish_confirms (S : Services) (env : World → World → Prop)
    (grows : ∀ w w', env w w' → Grows w w') {evs : List Event} {calls : List Call} {k : Int}
    {err : Option PublishError} {w w' : World}
    (run : Traced S.Answers env (publish evs) w calls (k, err) w')
    (reported : ∀ call ∈ calls, Reported call) :
    ∃ n : Nat, k = n ∧ ConfirmedPrefix evs calls n err w w' := by
  obtain ⟨n, same, confirmed⟩ :=
    confirmed_publishFrom grows evs.length 0 (Nat.zero_add evs.length).symm run reported
  exact ⟨n, by rwa [Nat.zero_add] at same, confirmed⟩

/-- An event of a deal without details. -/
def bareEvent : Event where
  schema := schema
  eventKey := "006A:1970-01-01T00:00:01.000Z"
  version := 1000
  opportunity := ⟨"006A", "Deal", "Closed Won", none, none, none, none, "1970-01-01T00:00:01.000Z"⟩
  publishedAt := "1970-01-01T00:00:02Z"
  modstamp := 1000000000

/-- The second of two entries failed. -/
def secondFailed : BatchReply := ⟨["0"], [⟨"1", "InternalError", "try again"⟩]⟩

/-- The first of two events is accepted and the second is refused. -/
theorem publish_confirms_first : ∃ calls w',
    ConfirmedPrefix [bareEvent, bareEvent] calls 1
      (some (.entryFailed 1 ⟨"1", "InternalError", "try again"⟩)) World.empty w' := by
  let m : Message := ⟨"m1", marshal bareEvent, [("event_key", bareEvent.eventKey)], 0⟩
  let w' : World := { World.empty with sqs := State.empty.push .main m }
  let calls : List Call := [⟨sendOf [bareEvent, bareEvent], .ok secondFailed⟩]
  have answered : (⟨fun _ => 0⟩ : Services).Answers (sendOf [bareEvent, bareEvent]) World.empty
      (.ok secondFailed) w' := by
    refine ⟨_, ⟨[entry 0 bareEvent], ?_, .cons ⟨m, rfl, rfl, ?_, rfl⟩ .nil, ?_⟩, rfl⟩
    · exact List.sublist_append_left [entry 0 bareEvent] [entry 1 bareEvent]
    · simp [State.Known, State.empty, World.empty]
    · intro out same
      cases same
      exact ⟨rfl, rfl⟩
  have found : firstFailed 2 ⟨"1", "InternalError", "try again"⟩ secondFailed.failed =
      .ok (1, ⟨"1", "InternalError", "try again"⟩) := by
    simp [firstFailed, secondFailed, show atoi "1" = some 1 from atoi_toString (i := 1) (by decide)]
  have run : Traced (⟨fun _ => 0⟩ : Services).Answers Grows (publish [bareEvent, bareEvent])
      World.empty calls (1, some (.entryFailed 1 ⟨"1", "InternalError", "try again"⟩)) w' := by
    refine .call .refl answered ?_
    rw [secondFailed] at found ⊢
    simp only [List.length_take, List.length_cons, List.length_nil, Prog.bind] at found ⊢
    simp [found]
    exact .ret
  obtain ⟨n, same, confirmed⟩ := publish_confirms ⟨fun _ => 0⟩ Grows (fun _ _ grows => grows) run (by
    intro call mem
    obtain rfl := List.mem_singleton.mp mem
    intro f failed
    obtain rfl := List.mem_singleton.mp failed
    exact mem_entry_ids.mpr ⟨1, by simp, rfl⟩)
  obtain rfl : n = 1 := by omega
  exact ⟨calls, w', confirmed⟩

end Relay.Ingest
