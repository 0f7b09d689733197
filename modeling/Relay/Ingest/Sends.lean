import Relay.Effect.Calls
import Relay.Ingest.Poller
import Relay.Platform.World
import Relay.Salesforce.Stamp

/-!
What the poller sends.

The rows of an answer are decoded and built into events one by one (`IsEventOf`),
and a batch send accepts an event as the message that `Carries` it. What is asked
for on the way, and in which order events come, is a property of the program text
(`Calls`, `Returns`).
-/

namespace Relay.Ingest

open Relay.Json Relay.Effect Relay.Platform Relay.Salesforce Relay.Events Relay.Sqs

/-- An event of the deal, published at some time. -/
def IsEventOf (d : Deal) (ev : Event) : Prop :=
  ∃ o publishedAt, Salesforce.Opportunity.unmarshal d.row.json = .ok o ∧
    fromOpportunity o publishedAt = some ev

/-- The message of an event. -/
def Carries (ev : Event) (m : Message) : Prop :=
  m.body = marshal ev ∧ m.attributes = [("event_key", ev.eventKey)]

theorem IsEventOf.modstamp {d : Deal} {ev : Event} (event : IsEventOf d ev) : ev.modstamp = d.stamp := by
  obtain ⟨o, publishedAt, decoded, built⟩ := event
  rw [unmarshal_row] at decoded
  cases decoded
  unfold fromOpportunity at built
  split at built
  · cases built
  · rename_i stamp parsed
    cases built
    rw [Deal.row, parseDateTime_wireText] at parsed
    split at parsed
    · cases parsed
      rfl
    · cases parsed

/-! ### Decoding -/

theorem forall₂_unmarshalAll {deals : List Deal} {rows : List (Salesforce.Opportunity Token)}
    (decoded : unmarshalAll (deals.map fun d => d.row.json) = .ok rows) :
    List.Forall₂ (fun d o => Salesforce.Opportunity.unmarshal d.row.json = .ok o) deals rows := by
  induction deals generalizing rows with
  | nil =>
      cases decoded
      exact .nil
  | cons d rest ih =>
      obtain ⟨o, first, decoded⟩ := ok_of_bind decoded
      obtain ⟨os, others, decoded⟩ := ok_of_bind decoded
      cases decoded
      exact .cons first (ih others)

theorem forall₂_comp {α β γ : Type} {r : α → β → Prop} {r' : β → γ → Prop} {t : α → γ → Prop}
    (comp : ∀ x y z, r x y → r' y z → t x z) {xs : List α} {ys : List β} {zs : List γ}
    (first : List.Forall₂ r xs ys) (second : List.Forall₂ r' ys zs) : List.Forall₂ t xs zs := by
  induction first generalizing zs with
  | nil =>
      cases second
      exact .nil
  | cons head _ ih =>
      cases second with
      | cons head' tail => exact .cons (comp _ _ _ head head') (ih tail)

theorem forall₂_isEventOf {deals : List Deal} {rows : List (Salesforce.Opportunity Token)} {evs : List Event}
    (decoded : List.Forall₂ (fun d o => Salesforce.Opportunity.unmarshal d.row.json = .ok o) deals rows)
    (built : List.Forall₂ (fun o ev => ∃ t, fromOpportunity o t = some ev) rows evs) :
    List.Forall₂ IsEventOf deals evs :=
  forall₂_comp (fun _ _ _ decoded ⟨publishedAt, event⟩ => ⟨_, publishedAt, decoded, event⟩) decoded built

theorem exists_of_forall₂ {α β : Type} {r : α → β → Prop} {xs : List α} {ys : List β}
    (all : List.Forall₂ r xs ys) {x : α} (mem : x ∈ xs) : ∃ y ∈ ys, r x y := by
  induction all with
  | nil => cases mem
  | cons first _ ih =>
      rcases List.mem_cons.mp mem with rfl | mem
      · exact ⟨_, List.mem_cons_self, first⟩
      · obtain ⟨y, memY, related⟩ := ih mem
        exact ⟨y, List.mem_cons_of_mem _ memY, related⟩

theorem getElem?_of_forall₂ {α β : Type} {r : α → β → Prop} {xs : List α} {ys : List β}
    (all : List.Forall₂ r xs ys) {k : Nat} {y : β} (here : ys[k]? = some y) :
    ∃ x, xs[k]? = some x ∧ r x y := by
  induction all generalizing k with
  | nil => simp at here
  | cons first _ ih =>
      cases k with
      | zero =>
          cases here
          exact ⟨_, rfl, first⟩
      | succ k => exact ih here

/-! ### Sending -/

/-- The entries of events accepted in full, in order. -/
theorem forall₂_carries {n : Nat} {chunk : List Event} {ms : List Message}
    (all : List.Forall₂ Entry.Of (chunk.mapIdx fun i ev => entry (i + n) ev) ms) :
    List.Forall₂ Carries chunk ms := by
  induction chunk generalizing n ms with
  | nil =>
      cases all
      exact .nil
  | cons ev rest ih =>
      rw [List.mapIdx_cons] at all
      cases all with
      | cons first others =>
          refine .cons first (ih (n := n + 1) ?_)
          simpa only [Nat.add_assoc, Nat.add_comm 1 n] using others

/-- A batch send with no failed entry accepted every event. -/
theorem sent_all {chunk : List Event} {s s' : State Queue} {out : BatchReply}
    (answered : SendsBatch .main (chunk.mapIdx entry) s (.ok out) s') (none : out.failed = []) :
    ∃ ms : List Message, s'.accepted = s.accepted ++ ms.map (fun m => (Queue.main, m)) ∧
      List.Forall₂ Carries chunk ms := by
  obtain ⟨stored, -, sent, reported⟩ := answered
  obtain ⟨ms, accepted, all⟩ := sent.accepted
  have whole : stored = chunk.mapIdx entry := by
    rw [(reported out rfl).1, List.filter_eq_self]
    intro e _
    simp [BatchReply.accepts, none]
  rw [whole] at all
  exact ⟨ms, accepted, forall₂_carries (n := 0) all⟩

/-- A batch send with a failed entry accepted the events before it. -/
theorem sent_before {chunk : List Event} (short : chunk.length ≤ 10) {s s' : State Queue} {out : BatchReply}
    (answered : SendsBatch .main (chunk.mapIdx entry) s (.ok out) s') {first f : BatchFailure} {idx : Int}
    (found : firstFailed chunk.length first out.failed = .ok (idx, f)) :
    ∀ ev ∈ chunk.take idx.toNat, ∃ m, (Queue.main, m) ∈ s'.accepted ∧ Carries ev m := by
  intro ev mem
  obtain ⟨i, here⟩ := List.mem_iff_getElem?.mp mem
  obtain ⟨before, here⟩ : i < idx.toNat ∧ chunk[i]? = some ev := by
    rw [List.getElem?_take] at here
    split at here
    · exact ⟨‹_›, here⟩
    · cases here
  obtain ⟨stored, -, sent, reported⟩ := answered
  obtain ⟨ms, accepted, all⟩ := sent.accepted
  have kept : entry i ev ∈ stored := by
    rw [(reported out rfl).1, List.mem_filter]
    refine ⟨List.mem_iff_getElem?.mpr ⟨i, ?_⟩, accepts_before short found (by omega) ev⟩
    rw [List.getElem?_mapIdx, here, Option.map_some]
  obtain ⟨m, memM, carries⟩ := exists_of_forall₂ all kept
  refine ⟨m, ?_, carries⟩
  rw [accepted]
  exact List.mem_append_right _ (List.mem_map_of_mem memM)

/-- Whatever a batch send accepted is one of its events. -/
theorem sent_only {chunk : List Event} {s s' : State Queue} {reply : Except String BatchReply}
    (answered : SendsBatch .main (chunk.mapIdx entry) s reply s') :
    ∃ ms : List Message, s'.accepted = s.accepted ++ ms.map (fun m => (Queue.main, m)) ∧
      ∀ m ∈ ms, ∃ ev ∈ chunk, Carries ev m := by
  obtain ⟨stored, sub, sent, -⟩ := answered
  obtain ⟨ms, accepted, all⟩ := sent.accepted
  refine ⟨ms, accepted, fun m mem => ?_⟩
  obtain ⟨e, memE, carries⟩ := exists_of_forall₂ all.flip mem
  obtain ⟨i, ev, here, rfl⟩ : ∃ i ev, chunk[i]? = some ev ∧ entry i ev = e := by
    obtain ⟨i, at_⟩ := List.mem_iff_getElem?.mp (sub.subset memE)
    rw [List.getElem?_mapIdx] at at_
    obtain ⟨ev, here, same⟩ := Option.map_eq_some_iff.mp at_
    exact ⟨i, ev, here, same⟩
  exact ⟨ev, List.mem_of_getElem? here, carries⟩

/-! ### The calls of a publish -/

/-- The events of the rows, in order, or the row that none can be built of. -/
def BuiltFrom (rows : List (Salesforce.Opportunity Token)) : Except RunError (List Event) → Prop
  | .ok evs => List.Forall₂ (fun o ev => ∃ t, fromOpportunity o t = some ev) rows evs
  | .error err => ∃ id systemModstamp, err = .event id systemModstamp

/-- Building events only reads the clock. -/
theorem calls_buildEvents {allowed : Request → Prop} (clock : allowed .timeNow)
    (rows : List (Salesforce.Opportunity Token)) : Calls allowed (buildEvents rows) := by
  induction rows with
  | nil => exact .ret _
  | cons row rest ih =>
      apply Calls.perform_bind clock
      intro now
      cases fromOpportunity row now with
      | none => exact .ret _
      | some ev =>
          apply ih.bind
          intro built
          cases built <;> exact .ret _

theorem returns_buildEvents (rows : List (Salesforce.Opportunity Token)) :
    Returns (BuiltFrom rows) (buildEvents rows) := by
  induction rows with
  | nil => exact .nil
  | cons row rest ih =>
      apply Returns.perform_bind
      intro now
      cases event : fromOpportunity row now with
      | none => exact ⟨_, _, rfl⟩
      | some ev =>
          apply ih.bind
          intro built events
          cases built with
          | error err => exact events
          | ok evs => exact .cons ⟨now, event⟩ events

/-- The publisher sends the batches that it is given. -/
theorem calls_publishFrom {allowed : Request → Prop} (total : Nat) {chunks : List (List Event)}
    (each : ∀ chunk ∈ chunks, allowed (.sendMessageBatch .main (chunk.mapIdx entry))) :
    ∀ start : Nat, Calls allowed (publishFrom total start chunks) := by
  induction chunks with
  | nil => exact fun _ => .ret _
  | cons chunk rest ih =>
      intro start
      refine Calls.perform_bind (each chunk List.mem_cons_self) fun reply => ?_
      cases reply with
      | error err => exact .ret _
      | ok out =>
          dsimp only
          split
          · exact ih (fun chunk mem => each chunk (List.mem_cons_of_mem _ mem)) _
          · split <;> exact .ret _

end Relay.Ingest
