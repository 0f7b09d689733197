import Mathlib.Data.List.Chain
import Relay.Ingest.NoSkip

/-!
Poll windows tile time.

The runs of a `Sequence` do not overlap; Salesforce may change at any moment, and
nobody else writes the watermark or sends. `exec_run` is the inversion of one run:
it either queried nothing or is `Polled`, which says what it read, sent and stored.
From it follow, for a whole sequence, that the windows touch and never overlap and
that every row of a window is published once (`windows_tile`).
-/

namespace Relay.Ingest

open Relay.Json Relay.Effect Relay.Platform Relay.Salesforce Relay.Events Relay.Sqs
  Relay.Data Relation

/-- Nothing was queried or sent, and the watermark is where it was. -/
structure Idle (p : Poller) (w w' : World) : Prop where
  reads : w'.reads = w.reads
  sends : w'.sqs.accepted = w.sqs.accepted
  mark : w'.parameters p.watermark.name = w.parameters p.watermark.name

/-- What happens around the runs: Salesforce may change in any way that keeps its
ids distinct. -/
structure Still (p : Poller) (w w' : World) : Prop extends Idle p w w' where
  clock : w'.serverTimes = w.serverTimes
  distinct : (w.org.map Deal.id).Nodup → (w'.org.map Deal.id).Nodup

theorem Idle.trans {p : Poller} {u v w : World} (first : Idle p u v) (second : Idle p v w) :
    Idle p u w where
  reads := second.reads.trans first.reads
  sends := second.sends.trans first.sends
  mark := second.mark.trans first.mark

theorem Idle.stored {p : Poller} {w w' : World} (idle : Idle p w w') :
    p.watermark.stored w' = p.watermark.stored w := by
  rw [SSMWatermark.stored, SSMWatermark.stored, idle.mark]

theorem Still.refl (p : Poller) (w : World) : Still p w w := ⟨⟨rfl, rfl, rfl⟩, rfl, id⟩

theorem Still.trans {p : Poller} {u v w : World} (first : Still p u v) (second : Still p v w) :
    Still p u w where
  toIdle := first.toIdle.trans second.toIdle
  clock := second.clock.trans first.clock
  distinct := fun distinct => second.distinct (first.distinct distinct)

section Runs

variable {S : Services} {p : Poller} {w w' : World}

theorem still_of_moves (moves : ReflTransGen (Still p) w w') : Still p w w' := by
  induction moves with
  | refl => exact Still.refl p w
  | tail _ move ih => exact ih.trans move

/-! ### One run, call by call -/

theorem exec_get {result : Except String Int}
    (run : Exec S.Answers (Still p) p.watermark.get w result w') :
    Still p w w' ∧ ∀ t, result = .ok t → p.watermark.stored w' = some t := by
  obtain ⟨w₁, reply, w₂, moves, ⟨rfl, stored⟩, done⟩ := Exec.of_perform_bind run
  refine ⟨?_, fun t ok => ?_⟩
  · rcases reply with (_ | err) | value
    all_goals
      obtain ⟨-, rfl⟩ := Exec.of_ret done
      exact still_of_moves moves
  · rcases reply with (_ | err) | value
    · obtain ⟨rfl, rfl⟩ := Exec.of_ret done
      cases ok
      rw [SSMWatermark.stored, stored]
    · obtain ⟨rfl, rfl⟩ := Exec.of_ret done
      cases ok
    · obtain ⟨rfl, rfl⟩ := Exec.of_ret done
      unfold readDateTime at ok
      split at ok
      · rename_i t' parsed
        cases ok
        rw [SSMWatermark.stored, stored]
        exact parsed
      · cases ok

/-- What a write of the watermark leaves alone, and what it stores. -/
structure Marked (p : Poller) (t : Int) (result : Except String Unit) (w w' : World) : Prop where
  reads : w'.reads = w.reads
  sends : w'.sqs.accepted = w.sqs.accepted
  clock : w'.serverTimes = w.serverTimes
  distinct : (w.org.map Deal.id).Nodup → (w'.org.map Deal.id).Nodup
  stores : result = .ok () → w'.parameters p.watermark.name = some (literal t)

theorem exec_set {t : Int} {result : Except String Unit}
    (run : Exec S.Answers (Still p) (p.watermark.set t) w result w') : Marked p t result w w' := by
  have call : Exec S.Answers (Still p)
      (Prog.perform (.putParameter p.watermark.name (literal t)) >>= .ret) w result w' := run
  obtain ⟨w₁, reply, w₂, moves, ⟨either, stores⟩, done⟩ := Exec.of_perform_bind call
  obtain ⟨rfl, rfl⟩ := Exec.of_ret done
  have still := still_of_moves moves
  refine ⟨?_, ?_, ?_, fun distinct => ?_, fun ok => ?_⟩
  · rcases either with rfl | rfl
    · exact still.reads
    · exact still.reads
  · rcases either with rfl | rfl
    · exact still.sends
    · exact still.sends
  · rcases either with rfl | rfl
    · exact still.clock
    · exact still.clock
  · rcases either with rfl | rfl
    · exact still.distinct distinct
    · exact still.distinct distinct
  · rw [stores ok]
    simp

theorem exec_buildEvents {rows : List (Salesforce.Opportunity Token)} {result : Except RunError (List Event)}
    (run : Exec S.Answers (Still p) (buildEvents rows) w result w') :
    Still p w w' ∧ BuiltFrom rows result := by
  have calls : Calls (Eq Request.timeNow) (buildEvents rows) := calls_buildEvents rfl rows
  refine ⟨?_, (returns_buildEvents rows).exec run⟩
  refine calls.invariant ?_ ?_ run (Still.refl p w)
  · rintro _ w₁ now w₂ rfl answered still
    obtain rfl : w₂ = w₁ := answered
    exact still
  · exact fun w₁ w₂ move still => still.trans move

/-- What a publish sent. -/
structure Publishes (p : Poller) (evs : List Event) (result : Int × Option PublishError)
    (ms : List Message) (w w' : World) : Prop where
  reads : w'.reads = w.reads
  mark : w'.parameters p.watermark.name = w.parameters p.watermark.name
  clock : w'.serverTimes = w.serverTimes
  distinct : (w.org.map Deal.id).Nodup → (w'.org.map Deal.id).Nodup
  sends : w'.sqs.accepted = w.sqs.accepted ++ ms.map fun m => (Queue.main, m)
  only : ∀ m ∈ ms, ∃ ev ∈ evs, Carries ev m
  all : result.2 = none → List.Forall₂ Carries evs ms

theorem exec_publishFrom {total : Nat} (rest : List Event) (start : Nat) (w : World) (result : Int × Option PublishError)
    (run : Exec S.Answers (Still p) (publishFrom total start (batches 10 rest)) w result w') :
    ∃ ms, Publishes p rest result ms w w' := by
  induction rest using batches_induction 10 (by omega) generalizing start w with
  | nil =>
      obtain ⟨rfl, rfl⟩ := Exec.of_ret run
      exact ⟨[], rfl, rfl, rfl, id, by simp, by simp, fun _ => .nil⟩
  | batch rest some_ ih =>
      rw [batches_of_ne_nil (by omega) some_] at run
      obtain ⟨w₁, reply, w₂, moves, ⟨sqs, answered, rfl⟩, run⟩ := Exec.of_perform_bind run
      have still := still_of_moves moves
      obtain ⟨ms, accepted, only⟩ := sent_only answered
      -- A publish that stops here has sent a part of this batch.
      have stopped : ∀ err, result.2 = some err → w' = { w₁ with sqs := sqs } →
          ∃ ms, Publishes p rest result ms w w' := by
        rintro err failed rfl
        refine ⟨ms, still.reads, still.mark, still.clock, still.distinct, ?_, fun m mem => ?_,
          fun done => ?_⟩
        · show sqs.accepted = _
          rw [accepted, still.sends]
        · obtain ⟨ev, mem, carries⟩ := only m mem
          exact ⟨ev, List.mem_of_mem_take mem, carries⟩
        · cases failed.symm.trans done
      cases reply with
      | error err =>
          obtain ⟨rfl, same⟩ := Exec.of_ret run
          exact stopped _ rfl same
      | ok out =>
          cases failed : out.failed with
          | nil =>
              simp only [failed] at run
              obtain ⟨ms, accepted, carries⟩ := sent_all answered failed
              obtain ⟨more, later⟩ := ih (start + 10) _ run
              refine ⟨ms ++ more, later.reads.trans still.reads, later.mark.trans still.mark,
                later.clock.trans still.clock, fun distinct => later.distinct (still.distinct distinct),
                ?_, fun m mem => ?_, fun done => ?_⟩
              · rw [later.sends, List.map_append, ← List.append_assoc, ← still.sends, ← accepted]
              · rcases List.mem_append.mp mem with mem | mem
                · obtain ⟨ev, memEv, carried⟩ := exists_of_forall₂ carries.flip mem
                  exact ⟨ev, List.mem_of_mem_take memEv, carried⟩
                · obtain ⟨ev, memEv, carried⟩ := later.only m mem
                  exact ⟨ev, List.mem_of_mem_drop memEv, carried⟩
              · have whole : List.Forall₂ Carries (rest.take 10 ++ rest.drop 10) (ms ++ more) :=
                  List.rel_append carries (later.all done)
                rwa [List.take_append_drop] at whole
          | cons first others =>
              simp only [failed] at run
              split at run
              · obtain ⟨rfl, same⟩ := Exec.of_ret run
                exact stopped _ rfl same
              · obtain ⟨rfl, same⟩ := Exec.of_ret run
                exact stopped _ rfl same

theorem exec_publish {evs : List Event} {result : Int × Option PublishError}
    (run : Exec S.Answers (Still p) (publish evs) w result w') : ∃ ms, Publishes p evs result ms w w' :=
  exec_publishFrom evs 0 w result run

/-- The event of a deal, as a message. -/
def Announces (d : Deal) (m : Message) : Prop := ∃ ev, IsEventOf d ev ∧ Carries ev m

/-- Where a run whose publish stopped at `k` left the watermark: at the first deal
that was not sent, or where it was, if that deal is not later. -/
def Resumes (p : Poller) (from_ : Int) (deals : List Deal) (k : Nat) (w w' : World) : Prop :=
  (w'.parameters p.watermark.name = w.parameters p.watermark.name ∧
      ∀ next, deals[k]? = some next → 0 < k → next.stamp ≤ from_) ∨
    ∃ next, deals[k]? = some next ∧ w'.parameters p.watermark.name = some (literal next.stamp)

theorem exec_finish {from_ upper : Int} {deals : List Deal} {evs : List Event} {sent : Nat}
    {pubErr : Option PublishError} {result : Result} {error : Option RunError}
    (events : List.Forall₂ IsEventOf deals evs)
    (run : Exec S.Answers (Still p) (p.finish from_ upper evs sent pubErr) w (result, error) w') :
    w'.reads = w.reads ∧ w'.sqs.accepted = w.sqs.accepted ∧ w'.serverTimes = w.serverTimes ∧
      ((w.org.map Deal.id).Nodup → (w'.org.map Deal.id).Nodup) ∧
      (error = none → pubErr = none ∧ w'.parameters p.watermark.name = some (literal upper)) ∧
      ∀ k found err, error = some (.publish k found err) → Resumes p from_ deals k w w' := by
  unfold Poller.finish at run
  cases pubErr with
  | some err =>
      cases resumes : resumeAt from_ sent evs with
      | some t =>
          simp only [resumes] at run
          obtain ⟨reply, w₁, set_, done⟩ := Exec.of_bind run
          have marked := exec_set set_
          cases reply with
          | error message =>
              obtain ⟨same, rfl⟩ := Exec.of_ret done
              cases same
              exact ⟨marked.reads, marked.sends, marked.clock, marked.distinct, nofun,
                fun _ _ _ other => by cases other⟩
          | ok value =>
              obtain ⟨same, rfl⟩ := Exec.of_ret done
              cases same
              refine ⟨marked.reads, marked.sends, marked.clock, marked.distinct, nofun,
                fun k found err' failed => ?_⟩
              cases failed
              unfold resumeAt at resumes
              split at resumes
              · rename_i ev here
                split at resumes
                · cases resumes
                  obtain ⟨next, hereD, event⟩ := getElem?_of_forall₂ events here
                  refine .inr ⟨next, hereD, ?_⟩
                  rw [← event.modstamp]
                  exact marked.stores rfl
                · cases resumes
              · cases resumes
      | none =>
          simp only [resumes] at run
          obtain ⟨same, rfl⟩ := Exec.of_ret run
          cases same
          refine ⟨rfl, rfl, rfl, id, nofun, fun k found err' failed => ?_⟩
          cases failed
          refine .inl ⟨rfl, fun next here positive => ?_⟩
          obtain ⟨ev, hereEv, event⟩ := getElem?_of_forall₂ events.flip here
          unfold resumeAt at resumes
          simp only [hereEv, positive, true_and, ite_eq_right_iff, reduceCtorEq, imp_false,
            not_lt] at resumes
          have event : IsEventOf next ev := event
          rw [← event.modstamp]
          exact resumes
  | none =>
      obtain ⟨reply, w₁, set_, done⟩ := Exec.of_bind run
      have marked := exec_set set_
      cases reply with
      | error message =>
          obtain ⟨same, rfl⟩ := Exec.of_ret done
          cases same
          exact ⟨marked.reads, marked.sends, marked.clock, marked.distinct, nofun,
                fun _ _ _ other => by cases other⟩
      | ok value =>
          obtain ⟨same, rfl⟩ := Exec.of_ret done
          cases same
          exact ⟨marked.reads, marked.sends, marked.clock, marked.distinct,
            fun _ => ⟨rfl, marked.stores rfl⟩, fun _ _ _ other => by cases other⟩

/-- A run that queried the window from `from_` up to `upper`, answered from `org`. -/
structure Polled (p : Poller) (from_ upper : Int) (org : List Deal) (ms : List Message)
    (error : Option RunError) (w w' : World) : Prop where
  start : p.watermark.stored w = some from_
  opens : from_ < upper
  whole : truncateSecond upper = upper
  clock : ∃ now, w'.serverTimes = w.serverTimes ++ [now] ∧ upper = truncateSecond (now - p.lag)
  legible : parseDateTime (literal from_) = some (truncateSecond from_) ∧
    parseDateTime (literal upper) = some upper
  reads : w'.reads = w.reads ++ [(query from_ upper, org)]
  ids : (org.map Deal.id).Nodup
  sends : w'.sqs.accepted = w.sqs.accepted ++ ms.map fun m => (Queue.main, m)
  only : ∀ m ∈ ms, ∃ d ∈ selected (inWindow (truncateSecond from_) upper) org, Announces d m
  success : error = none →
    List.Forall₂ Announces (selected (inWindow (truncateSecond from_) upper) org) ms ∧
      w'.parameters p.watermark.name = some (literal upper)
  failure : ∀ k found err, error = some (.publish k found err) →
    (∀ d ∈ selected (inWindow (truncateSecond from_) upper) org, ∃ ev, IsEventOf d ev) ∧
      Resumes p from_ (selected (inWindow (truncateSecond from_) upper) org) k w w'

/-- The rows of a window were given to the publisher, or no event was built. -/
theorem exec_publishRows {from_ upper : Int} {deals : List Deal}
    {rows : List (Salesforce.Opportunity Token)} {result : Result} {error : Option RunError}
    (decoded : List.Forall₂ (fun d o => Salesforce.Opportunity.unmarshal d.row.json = .ok o) deals rows)
    (run : Exec S.Answers (Still p) (p.publishRows from_ upper rows) w (result, error) w') :
    ∃ ms, w'.reads = w.reads ∧ w'.serverTimes = w.serverTimes ∧ ((w.org.map Deal.id).Nodup → (w'.org.map Deal.id).Nodup) ∧
      w'.sqs.accepted = w.sqs.accepted ++ ms.map (fun m => (Queue.main, m)) ∧
      (∀ m ∈ ms, ∃ d ∈ deals, Announces d m) ∧
      (error = none → List.Forall₂ Announces deals ms ∧
        w'.parameters p.watermark.name = some (literal upper)) ∧
      ∀ k found err, error = some (.publish k found err) →
        (∀ d ∈ deals, ∃ ev, IsEventOf d ev) ∧ Resumes p from_ deals k w w' := by
  obtain ⟨built, w₁, building, run⟩ := Exec.of_bind run
  obtain ⟨still, all⟩ := exec_buildEvents building
  cases built with
  | error err =>
      obtain ⟨same, rfl⟩ := Exec.of_ret run
      cases same
      refine ⟨[], still.reads, still.clock, still.distinct, by simpa using still.sends, by simp, nofun, ?_⟩
      obtain ⟨id, systemModstamp, rfl⟩ := all
      intro k found err' failed
      cases failed
  | ok evs =>
      have events := forall₂_isEventOf decoded all
      obtain ⟨⟨sent, pubErr⟩, w₂, publishing, run⟩ := Exec.of_bind run
      obtain ⟨ms, published⟩ := exec_publish publishing
      have only : ∀ m ∈ ms, ∃ d ∈ deals, Announces d m := by
        intro m mem
        obtain ⟨ev, memEv, carries⟩ := published.only m mem
        obtain ⟨d, memD, event⟩ := exists_of_forall₂ events.flip memEv
        exact ⟨d, memD, ev, event, carries⟩
      dsimp only at run
      split at run
      · obtain ⟨reads, sends, clock, distinct, success, failure⟩ := exec_finish events run
        refine ⟨ms, ?_, ?_, ?_, ?_, only, fun done => ?_, fun k found err failed => ⟨fun d mem => ?_, ?_⟩⟩
        · rw [reads, published.reads, still.reads]
        · rw [clock, published.clock, still.clock]
        · exact fun start => distinct (published.distinct (still.distinct start))
        · rw [sends, published.sends, still.sends]
        · obtain ⟨none, mark⟩ := success done
          refine ⟨forall₂_comp (fun d ev m event carries => ⟨ev, event, carries⟩) events ?_, mark⟩
          exact published.all none
        · obtain ⟨ev, -, event⟩ := exists_of_forall₂ events mem
          exact ⟨ev, event⟩
        · have resumes := failure k found err failed
          rcases resumes with ⟨mark, early⟩ | later
          · exact .inl ⟨by rw [mark, published.mark, still.mark], early⟩
          · exact .inr later
      · obtain ⟨same, rfl⟩ := Exec.of_ret run
        cases same
        refine ⟨ms, ?_, ?_, ?_, ?_, only, nofun, fun _ _ _ other => by cases other⟩
        · rw [published.reads, still.reads]
        · rw [published.clock, still.clock]
        · exact fun start => published.distinct (still.distinct start)
        · rw [published.sends, still.sends]

theorem exec_query {soql : Soql} {result : Except String (List (Salesforce.Opportunity Token))}
    (run : Exec S.Answers (Still p) (queryAll soql) w result w') :
    (Still p w w' ∧ ∃ err, result = .error err) ∨
      ∃ org records, w'.reads = w.reads ++ [(soql, org)] ∧ w'.sqs.accepted = w.sqs.accepted ∧
        w'.parameters p.watermark.name = w.parameters p.watermark.name ∧ w'.serverTimes = w.serverTimes ∧
        ((w.org.map Deal.id).Nodup → (org.map Deal.id).Nodup ∧ (w'.org.map Deal.id).Nodup) ∧
        soql.Selects org records ∧ result = unmarshalAll records := by
  obtain ⟨w₁, reply, w₂, moves, answered, done⟩ := Exec.of_perform_bind run
  have still := still_of_moves moves
  cases reply with
  | error err =>
      obtain ⟨rfl, rfl⟩ := Exec.of_ret done
      obtain rfl : w' = w₁ := answered
      exact .inl ⟨still, err, rfl⟩
  | ok records =>
      obtain ⟨rfl, rfl⟩ := Exec.of_ret done
      obtain ⟨selects, rfl⟩ := answered
      refine .inr ⟨w₁.org, records, ?_, still.sends, still.mark, still.clock, fun start => ?_, selects, rfl⟩
      · rw [← still.reads]
      · exact ⟨still.distinct start, still.distinct start⟩

/-- Two ways of one run: it queried nothing, or it `Polled`. -/
theorem exec_run {result : Result} {error : Option RunError} (distinct : (w.org.map Deal.id).Nodup)
    (run : Exec S.Answers (Still p) p.run w (result, error) w') :
    (w'.org.map Deal.id).Nodup ∧
      ((Idle p w w' ∧ (∀ k found err, error ≠ some (.publish k found err)) ∧
          (error = none → ∃ from_ now, p.watermark.stored w = some from_ ∧
            w'.serverTimes = w.serverTimes ++ [now] ∧ truncateSecond (now - p.lag) ≤ from_)) ∨
        ∃ from_ upper org ms, Polled p from_ upper org ms error w w') := by
  obtain ⟨got, w₁, getting, run⟩ := Exec.of_bind run
  obtain ⟨still₁, stored⟩ := exec_get getting
  cases got with
  | error err =>
      obtain ⟨same, rfl⟩ := Exec.of_ret run
      cases same
      exact ⟨still₁.distinct distinct, .inl ⟨still₁.toIdle, by simp, by simp⟩⟩
  | ok from_ =>
      have start : p.watermark.stored w = some from_ := by
        rw [← still₁.stored]
        exact stored from_ rfl
      obtain ⟨w₂, reply, w₃, moves, clock, run⟩ := Exec.of_perform_bind run
      have still₂ := still₁.trans (still_of_moves moves)
      have still₃ : Idle p w w₃ := by
        rw [clock]
        exact ⟨still₂.reads, still₂.sends, still₂.mark⟩
      have distinct₃ : (w₃.org.map Deal.id).Nodup := by
        rw [clock]
        exact still₂.distinct distinct
      cases reply with
      | error err =>
          obtain ⟨same, rfl⟩ := Exec.of_ret run
          cases same
          exact ⟨distinct₃, .inl ⟨still₃, by simp, by simp⟩⟩
      | ok now =>
          dsimp only at run
          have known : w₃.serverTimes = w.serverTimes ++ [now] := by
            rw [clock, ← still₂.clock]
          split at run
          · rename_i closed
            obtain ⟨same, rfl⟩ := Exec.of_ret run
            cases same
            exact ⟨distinct₃, .inl ⟨still₃, by simp, fun _ => ⟨from_, now, start, known, closed⟩⟩⟩
          · rename_i opens
            obtain ⟨answer, w₄, querying, run⟩ := Exec.of_bind run
            have whole : truncateSecond (truncateSecond (now - p.lag)) = truncateSecond (now - p.lag) := by
              rw [truncateSecond, truncateSecond, nanosPerSecond]
              omega
            rcases exec_query querying with
              ⟨still₄, err, rfl⟩ | ⟨org, records, reads, sends, mark, served, kept, selects, rfl⟩
            · obtain ⟨same, rfl⟩ := Exec.of_ret run
              cases same
              exact ⟨still₄.distinct distinct₃, .inl ⟨still₃.trans still₄.toIdle, by simp, by simp⟩⟩
            · obtain ⟨ids, ids'⟩ := kept distinct₃
              obtain ⟨low, high, lower, higher, rfl⟩ := selects
              have lower' : low = truncateSecond from_ := by
                rw [parseDateTime_literal] at lower
                split at lower
                · exact (Option.some.inj lower).symm
                · cases lower
              have higher' : high = truncateSecond (now - p.lag) := by
                rw [parseDateTime_literal, whole] at higher
                split at higher
                · exact (Option.some.inj higher).symm
                · cases higher
              subst lower' higher'
              rw [still₃.reads] at reads
              rw [still₃.sends] at sends
              rw [still₃.mark] at mark
              rw [known] at served
              cases decoded : unmarshalAll ((selected (inWindow (truncateSecond from_)
                  (truncateSecond (now - p.lag))) org).map fun d => d.row.json) with
              | error err =>
                  simp only [decoded] at run
                  obtain ⟨same, rfl⟩ := Exec.of_ret run
                  cases same
                  refine ⟨ids', .inr ⟨from_, _, org, [], start, not_le.mp opens, whole,
                    ⟨now, served, rfl⟩, ⟨lower, higher⟩, reads, ids, by simpa using sends, by simp, by simp, ?_⟩⟩
                  intro k found err' failed
                  cases failed
              | ok rows =>
                  simp only [decoded] at run
                  obtain ⟨ms, reads', served', ids'', sends', only, success, failure⟩ :=
                    exec_publishRows (forall₂_unmarshalAll decoded) run
                  refine ⟨ids'' ids', .inr ⟨from_, _, org, ms, start, not_le.mp opens, whole,
                    ⟨now, served'.trans served, rfl⟩, ⟨lower, higher⟩, reads'.trans reads, ids, by rw [sends', sends], only, success,
                    fun k found err failed => ?_⟩⟩
                  obtain ⟨built, ⟨mark', early⟩ | later⟩ := failure k found err failed
                  · exact ⟨built, .inl ⟨mark'.trans mark, early⟩⟩
                  · exact ⟨built, .inr later⟩

end Runs

/-! ### Event keys -/

/-- The key of a deal's event. -/
def eventKey (d : Deal) : String := d.id ++ ":" ++ String.ofList (formatMillis d.stamp)

/-- Only a stamp with a year of four digits is read. -/
theorem IsEventOf.key {d : Deal} {ev : Event} (event : IsEventOf d ev) :
    ev.eventKey = eventKey d ∧ FourDigits (.ofSeconds (d.stamp / nanosPerSecond)) := by
  obtain ⟨o, publishedAt, decoded, built⟩ := event
  rw [unmarshal_row] at decoded
  cases decoded
  have same : 1000000 * d.systemModstamp / 1000000000 = d.systemModstamp / 1000 := by omega
  rw [fromOpportunity, Deal.row, parseDateTime_wireText] at built
  rw [Deal.stamp, nanosPerSecond, same]
  by_cases inside : FourDigits (.ofSeconds (d.systemModstamp / 1000))
  · rw [if_pos inside] at built
    cases built
    exact ⟨rfl, inside⟩
  · rw [if_neg inside] at built
    cases built

/-- A key names one version of one deal. -/
theorem eventKey_injective {d d' : Deal} (inside : FourDigits (.ofSeconds (d.stamp / nanosPerSecond)))
    (inside' : FourDigits (.ofSeconds (d'.stamp / nanosPerSecond))) (same : eventKey d = eventKey d') :
    d.id = d'.id ∧ d.stamp = d'.stamp := by
  have chars := congrArg String.toList same
  simp only [eventKey, String.toList_append, String.toList_ofList, List.append_assoc] at chars
  have long : ∀ d : Deal, FourDigits (.ofSeconds (d.stamp / nanosPerSecond)) →
      (":".toList ++ formatMillis d.stamp).length = 25 := by
    intro d inside
    simp [formatMillis, length_text inside]
  obtain ⟨ids, tails⟩ := List.append_inj' chars ((long d inside).trans (long d' inside').symm)
  refine ⟨String.toList_injective ids, ?_⟩
  have texts := congrArg String.ofList (List.append_cancel_left tails)
  have read := congrArg parseDateTime texts
  rw [parseDateTime_formatMillis, parseDateTime_formatMillis, if_pos inside, if_pos inside'] at read
  have stamps := Option.some.inj read
  rw [Deal.stamp, Deal.stamp] at stamps ⊢
  omega

theorem Announces.key {d : Deal} {m : Message} (announces : Announces d m) :
    m.attribute? "event_key" = some (eventKey d) ∧ FourDigits (.ofSeconds (d.stamp / nanosPerSecond)) := by
  obtain ⟨ev, event, carries⟩ := announces
  rw [Message.attribute?, carries.2, ← event.key.1]
  exact ⟨rfl, event.key.2⟩

/-! ### Sequences of runs -/

/-- One run of a sequence. -/
structure Pass where
  before : World
  after : World
  result : Result
  error : Option RunError

/-- Runs that do not overlap; everything around them may move at any time. -/
inductive Sequence (S : Services) (p : Poller) : World → List Pass → Prop where
  | nil {w : World} : Sequence S p w []
  | run {w w₁ : World} {result : Result} {error : Option RunError} {rest : List Pass} :
      Exec S.Answers (Still p) p.run w (result, error) w₁ → Sequence S p w₁ rest →
      Sequence S p w (⟨w, w₁, result, error⟩ :: rest)

/-- The window of a query. -/
def windowOf : Soql × List Deal → Option (Int × Int)
  | (.wonBetween from_ upper, _) =>
      match parseDateTime from_, parseDateTime upper with
      | some low, some high => some (low, high)
      | _, _ => none
  | _ => none

/-- The deals that were won in the window when it was queried. -/
def rowsOf (read : Soql × List Deal) : List Deal :=
  match windowOf read with
  | some (low, high) => selected (inWindow low high) read.2
  | none => []

namespace Pass

/-- The queries of the run, with the org that each was answered from. -/
def reads (pass : Pass) : List (Soql × List Deal) := pass.after.reads.drop pass.before.reads.length

def windows (pass : Pass) : List (Int × Int) := pass.reads.filterMap windowOf

def rows (pass : Pass) : List Deal := pass.reads.flatMap rowsOf

/-- What the run sent. -/
def messages (pass : Pass) : List Message :=
  (pass.after.sqs.accepted.drop pass.before.sqs.accepted.length).map Prod.snd

end Pass

/-- A run that read the watermark and the clock: it queried the window between them, if there is
one, and stored its end; else it sent nothing and left the watermark where it was. -/
def Pass.Advances (p : Poller) (pass : Pass) : Prop :=
  ∃ from_ now, p.watermark.stored pass.before = some from_ ∧
    pass.after.serverTimes = pass.before.serverTimes ++ [now] ∧
    (truncateSecond (now - p.lag) ≤ from_ →
      pass.windows = [] ∧ pass.messages = [] ∧ p.watermark.stored pass.after = some from_) ∧
    (from_ < truncateSecond (now - p.lag) →
      pass.windows = [(truncateSecond from_, truncateSecond (now - p.lag))] ∧
        p.watermark.stored pass.after = some (truncateSecond (now - p.lag)))

/-- How often an event was published. -/
def publications (passes : List Pass) (key : String) : Nat :=
  (passes.flatMap Pass.messages).countP fun m => m.attribute? "event_key" = some key

section Passes

variable {p : Poller} (pass : Pass)

theorem pass_idle (idle : Idle p pass.before pass.after) :
    pass.windows = [] ∧ pass.rows = [] ∧ pass.messages = [] := by
  have reads : pass.reads = [] := by rw [Pass.reads, idle.reads, List.drop_length]
  refine ⟨by rw [Pass.windows, reads]; rfl, by rw [Pass.rows, reads]; rfl, ?_⟩
  rw [Pass.messages, idle.sends, List.drop_length]
  rfl

theorem pass_polled {from_ upper : Int} {org : List Deal} {ms : List Message}
    (polled : Polled p from_ upper org ms pass.error pass.before pass.after) :
    pass.windows = [(truncateSecond from_, upper)] ∧
      pass.rows = selected (inWindow (truncateSecond from_) upper) org ∧ pass.messages = ms := by
  have reads : pass.reads = [(query from_ upper, org)] := by
    rw [Pass.reads, polled.reads, List.drop_left]
  have window : windowOf (query from_ upper, org) = some (truncateSecond from_, upper) := by
    simp only [windowOf, query, polled.legible]
  refine ⟨by simp [Pass.windows, reads, window], by simp [Pass.rows, reads, rowsOf, window], ?_⟩
  rw [Pass.messages, polled.sends, List.drop_left, List.map_map]
  exact List.map_id _

end Passes

/-- The deal is in the answer to the query if it is visible: a deal that is current
when the query is answered is visible once Salesforce's clock has returned a time
that lies past its stamp by more than the lag. -/
def Pass.Visible (p : Poller) (pass : Pass) (read : Soql × List Deal) (d : Deal) : Prop :=
  (∃ t ∈ pass.after.serverTimes, d.stamp < t - p.lag) → d ∈ read.2

/-- The deal was won in the window of this query. -/
def InWindow (read : Soql × List Deal) (d : Deal) : Prop :=
  ∃ window, windowOf read = some window ∧ d.isWon = true ∧ window.1 ≤ d.stamp ∧ d.stamp < window.2

/-! ### Runs that all succeed -/

/-- What the windows of successful runs are, from the watermark stored in `w`. -/
structure Tiled (p : Poller) (w : World) (passes : List Pass) : Prop where
  announced : ∀ pass ∈ passes, List.Forall₂ Announces pass.rows pass.messages
  /-- A window begins where the one before it ends, in the second of the watermark. -/
  touching : (passes.flatMap Pass.windows).IsChain fun a b => a.2 = b.1
  first : ∀ from_, p.watermark.stored w = some from_ →
    ∀ window ∈ (passes.flatMap Pass.windows).head?, window.1 = truncateSecond from_
  apart : (passes.flatMap Pass.windows).Pairwise fun a b => a.2 ≤ b.1
  later : ∀ from_, p.watermark.stored w = some from_ →
    ∀ window ∈ passes.flatMap Pass.windows, truncateSecond from_ ≤ window.1
  since : ∀ from_, p.watermark.stored w = some from_ →
    ∀ d ∈ passes.flatMap Pass.rows, truncateSecond from_ ≤ d.stamp
  versions : (passes.flatMap Pass.rows).Pairwise fun a b => ¬(a.id = b.id ∧ a.stamp = b.stamp)

theorem tiled_nil (p : Poller) (w : World) : Tiled p w [] where
  announced := by simp
  touching := .nil
  first := by simp
  apart := .nil
  later := by simp
  since := by simp
  versions := .nil

/-- A run that queried nothing changes nothing. -/
theorem Tiled.idle {p : Poller} (pass : Pass) {rest : List Pass} (tiled : Tiled p pass.after rest)
    (idle : Idle p pass.before pass.after) : Tiled p pass.before (pass :: rest) := by
  obtain ⟨windows, rows, messages⟩ := pass_idle pass idle
  have sameWindows : (pass :: rest).flatMap Pass.windows = rest.flatMap Pass.windows := by
    rw [List.flatMap_cons, windows, List.nil_append]
  have sameRows : (pass :: rest).flatMap Pass.rows = rest.flatMap Pass.rows := by
    rw [List.flatMap_cons, rows, List.nil_append]
  refine ⟨fun pass' mem => ?_, ?_, ?_, ?_, ?_, ?_, ?_⟩
  · rcases List.mem_cons.mp mem with rfl | mem
    · rw [rows, messages]
      exact .nil
    · exact tiled.announced pass' mem
  · rw [sameWindows]
    exact tiled.touching
  · rw [sameWindows, ← idle.stored]
    exact tiled.first
  · rw [sameWindows]
    exact tiled.apart
  · rw [sameWindows, ← idle.stored]
    exact tiled.later
  · rw [sameRows, ← idle.stored]
    exact tiled.since
  · rw [sameRows]
    exact tiled.versions

/-- The rows of one window are different deals. -/
theorem selected_versions (p : Deal → Bool) {org : List Deal} (ids : (org.map Deal.id).Nodup) :
    (selected p org).Pairwise fun a b => ¬(a.id = b.id ∧ a.stamp = b.stamp) :=
  (List.pairwise_map.mp (selected_nodup p ids)).imp fun differ same => differ same.1

theorem stamp_of_mem_selected {low upper : Int} {org : List Deal} {d : Deal}
    (mem : d ∈ selected (inWindow low upper) org) : low ≤ d.stamp ∧ d.stamp < upper := by
  have inside := (mem_selected.mp mem).2
  simp only [inWindow, Bool.and_eq_true, decide_eq_true_eq] at inside
  exact ⟨inside.1.2, inside.2⟩

/-- A successful run's window ends where the windows after it begin. -/
theorem Tiled.polled {p : Poller} (pass : Pass) {rest : List Pass} (tiled : Tiled p pass.after rest)
    {from_ upper : Int} {org : List Deal} {ms : List Message} (clean : pass.error = none)
    (polled : Polled p from_ upper org ms pass.error pass.before pass.after) :
    Tiled p pass.before (pass :: rest) := by
  obtain ⟨windows, rows, messages⟩ := pass_polled pass polled
  obtain ⟨carried, mark⟩ := polled.success clean
  have ends : p.watermark.stored pass.after = some upper := by
    rw [SSMWatermark.stored, mark]
    exact polled.legible.2
  have starts : ∀ t, p.watermark.stored pass.before = some t → t = from_ := fun t stored =>
    Option.some.inj (stored.symm.trans polled.start)
  have below : truncateSecond from_ ≤ upper := by
    have opens := polled.opens
    rw [truncateSecond, nanosPerSecond]
    omega
  have later : ∀ window ∈ rest.flatMap Pass.windows, upper ≤ window.1 := by
    intro window mem
    have bound := tiled.later upper ends window mem
    rwa [polled.whole] at bound
  have since : ∀ d ∈ rest.flatMap Pass.rows, upper ≤ d.stamp := by
    intro d mem
    have bound := tiled.since upper ends d mem
    rwa [polled.whole] at bound
  have allWindows : (pass :: rest).flatMap Pass.windows =
      (truncateSecond from_, upper) :: rest.flatMap Pass.windows := by
    rw [List.flatMap_cons, windows, List.singleton_append]
  have allRows : (pass :: rest).flatMap Pass.rows =
      selected (inWindow (truncateSecond from_) upper) org ++ rest.flatMap Pass.rows := by
    rw [List.flatMap_cons, rows]
  refine ⟨fun pass' mem => ?_, ?_, fun t stored => ?_, ?_, fun t stored window mem => ?_,
    fun t stored d mem => ?_, ?_⟩
  · rcases List.mem_cons.mp mem with rfl | mem
    · rw [rows, messages]
      exact carried
    · exact tiled.announced pass' mem
  · rw [allWindows, List.isChain_cons]
    refine ⟨fun window mem => ?_, tiled.touching⟩
    rw [tiled.first upper ends window mem, polled.whole]
  · rw [allWindows, starts t stored]
    rintro window ⟨⟩
    rfl
  · rw [allWindows, List.pairwise_cons]
    exact ⟨later, tiled.apart⟩
  · rw [starts t stored]
    rw [allWindows] at mem
    rcases List.mem_cons.mp mem with rfl | mem
    · exact le_refl _
    · exact below.trans (later window mem)
  · rw [starts t stored]
    rw [allRows] at mem
    rcases List.mem_append.mp mem with mem | mem
    · exact (stamp_of_mem_selected mem).1
    · exact below.trans (since d mem)
  · rw [allRows, List.pairwise_append]
    refine ⟨selected_versions _ polled.ids, tiled.versions, fun a memA b memB same => ?_⟩
    have before := (stamp_of_mem_selected memA).2
    have after := since b memB
    omega

theorem Sequence.tiled {S : Services} {p : Poller} {w : World} {passes : List Pass}
    (sequence : Sequence S p w passes) (distinct : (w.org.map Deal.id).Nodup)
    (clean : ∀ pass ∈ passes, pass.error = none) : Tiled p w passes := by
  induction sequence with
  | nil => exact tiled_nil p _
  | @run w w₁ result error rest run _ ih =>
      have done : error = none := clean _ List.mem_cons_self
      obtain ⟨distinct₁, ways⟩ := exec_run distinct run
      have tiled := ih distinct₁ fun pass mem => clean pass (List.mem_cons_of_mem _ mem)
      rcases ways with ⟨idle, -⟩ | ⟨from_, upper, org, ms, polled⟩
      · exact Tiled.idle ⟨w, w₁, result, error⟩ tiled idle
      · exact Tiled.polled ⟨w, w₁, result, error⟩ tiled done polled

theorem forall₂_flatMap {α β γ : Type} {r : β → γ → Prop} {f : α → List β} {g : α → List γ}
    {xs : List α} (all : ∀ x ∈ xs, List.Forall₂ r (f x) (g x)) :
    List.Forall₂ r (xs.flatMap f) (xs.flatMap g) := by
  induction xs with
  | nil => exact .nil
  | cons x rest ih =>
      rw [List.flatMap_cons, List.flatMap_cons]
      exact List.rel_append (all x List.mem_cons_self) (ih fun y mem => all y (List.mem_cons_of_mem _ mem))

/-- Of different versions, each is announced by one message. -/
theorem countP_announces {rows : List Deal} {ms : List Message} (announced : List.Forall₂ Announces rows ms)
    (versions : rows.Pairwise fun a b => ¬(a.id = b.id ∧ a.stamp = b.stamp)) {d : Deal} (mem : d ∈ rows) :
    (ms.countP fun m => m.attribute? "event_key" = some (eventKey d)) = 1 := by
  have inside : ∀ d ∈ rows, FourDigits (.ofSeconds (d.stamp / nanosPerSecond)) := by
    intro d mem
    obtain ⟨m, -, announces⟩ := exists_of_forall₂ announced mem
    exact announces.key.2
  induction announced with
  | nil => cases mem
  | @cons first m rest ms announces others ih =>
      have key : m.attribute? "event_key" = some (eventKey first) := announces.key.1
      obtain ⟨differ, versions⟩ := List.pairwise_cons.mp versions
      have kept : ∀ d ∈ rest, FourDigits (.ofSeconds (d.stamp / nanosPerSecond)) := fun d mem =>
        inside d (List.mem_cons_of_mem _ mem)
      rcases List.mem_cons.mp mem with rfl | mem
      · -- No later row is this version.
        have none : (ms.countP fun m => m.attribute? "event_key" = some (eventKey d)) = 0 := by
          rw [List.countP_eq_zero]
          intro m' memM same
          obtain ⟨d', memD, later⟩ := exists_of_forall₂ others.flip memM
          have announces' : Announces d' m' := later
          have keys : some (eventKey d') = some (eventKey d) :=
            announces'.key.1.symm.trans (of_decide_eq_true same)
          have version := eventKey_injective (inside _ List.mem_cons_self) (kept d' memD)
            (Option.some.inj keys).symm
          exact differ d' memD version
        rw [List.countP_cons_of_pos (by simp [key]), none]
      · have other : ¬(eventKey first = eventKey d) := fun same =>
          differ d mem (eventKey_injective (inside _ List.mem_cons_self) (kept d mem) same)
        rw [List.countP_cons_of_neg (by simpa [key] using other)]
        exact ih versions mem kept

/-! ### Any runs -/

/-- Every run of a sequence starts with distinct ids where the run before it ended. -/
theorem Sequence.after {S : Services} {p : Poller} {w : World} {before passes : List Pass}
    (sequence : Sequence S p w (before ++ passes)) (distinct : (w.org.map Deal.id).Nodup) :
    ∃ w', (w'.org.map Deal.id).Nodup ∧ Sequence S p w' passes := by
  induction before generalizing w with
  | nil => exact ⟨w, distinct, sequence⟩
  | cons pass before ih =>
      cases sequence with
      | run run rest => exact ih rest (exec_run distinct run).1

theorem Sequence.pass {S : Services} {p : Poller} {w : World} {passes : List Pass}
    (sequence : Sequence S p w passes) (distinct : (w.org.map Deal.id).Nodup) {pass : Pass}
    (mem : pass ∈ passes) : (Idle p pass.before pass.after ∧
        (pass.error = none → ∃ from_ now, p.watermark.stored pass.before = some from_ ∧
          pass.after.serverTimes = pass.before.serverTimes ++ [now] ∧
          truncateSecond (now - p.lag) ≤ from_)) ∨
      ∃ from_ upper org ms, Polled p from_ upper org ms pass.error pass.before pass.after := by
  obtain ⟨before, rest, rfl⟩ := List.append_of_mem mem
  obtain ⟨w', distinct', sequence'⟩ := sequence.after distinct
  cases sequence' with
  | run run _ =>
      rcases (exec_run distinct' run).2 with ⟨idle, -, closed⟩ | polled
      · exact .inl ⟨idle, closed⟩
      · exact .inr polled

/-- A run without an error advances the watermark, whatever the runs before it did. -/
theorem Sequence.advances {S : Services} {p : Poller} {w : World} {passes : List Pass}
    (sequence : Sequence S p w passes) (distinct : (w.org.map Deal.id).Nodup) {pass : Pass}
    (mem : pass ∈ passes) (clean : pass.error = none) : pass.Advances p := by
  rcases sequence.pass distinct mem with ⟨idle, closed⟩ | ⟨from_, upper, org, ms, polled⟩
  · obtain ⟨windows, -, messages⟩ := pass_idle pass idle
    obtain ⟨from_, now, start, clock, below⟩ := closed clean
    refine ⟨from_, now, start, clock, fun _ => ⟨windows, messages, idle.stored.trans start⟩, fun opens => ?_⟩
    exact absurd below (not_le.mpr opens)
  · obtain ⟨windows, -, -⟩ := pass_polled pass polled
    obtain ⟨now, clock, rfl⟩ := polled.clock
    obtain ⟨-, mark⟩ := polled.success clean
    have ends : p.watermark.stored pass.after = some (truncateSecond (now - p.lag)) := by
      rw [SSMWatermark.stored, mark]
      exact polled.legible.2
    exact ⟨from_, now, polled.start, clock, fun closed => absurd polled.opens (not_lt.mpr closed),
      fun _ => ⟨windows, ends⟩⟩

/-- A current deal of a queried window is one of the rows. -/
theorem mem_rows_of_visible {p : Poller} {pass : Pass} {from_ upper : Int} {org : List Deal}
    {ms : List Message} (polled : Polled p from_ upper org ms pass.error pass.before pass.after)
    {read : Soql × List Deal} (mem : read ∈ pass.reads) {d : Deal} (inside : InWindow read d)
    (visible : pass.Visible p read d) : d ∈ pass.rows := by
  have reads : pass.reads = [(query from_ upper, org)] := by
    rw [Pass.reads, polled.reads, List.drop_left]
  rw [reads, List.mem_singleton] at mem
  subst mem
  have window : windowOf (query from_ upper, org) = some (truncateSecond from_, upper) := by
    simp only [windowOf, query, polled.legible]
  obtain ⟨found, here, won, low, high⟩ := inside
  cases window.symm.trans here
  obtain ⟨now, served, ends⟩ := polled.clock
  have known : now ∈ pass.after.serverTimes := by
    rw [served]
    exact List.mem_append_right _ List.mem_cons_self
  have passed : d.stamp < now - p.lag := by
    have below : d.stamp < upper := high
    rw [ends, truncateSecond, nanosPerSecond] at below
    omega
  rw [(pass_polled pass polled).2.1]
  refine mem_selected.mpr ⟨visible ⟨now, known, passed⟩, ?_⟩
  simp [inWindow, won, low, high]

theorem truncateSecond_eq_of_between {s t t' : Int} (low : truncateSecond s ≤ t) (le : t ≤ t')
    (high : t' ≤ s) : truncateSecond t = truncateSecond t' := by
  simp only [truncateSecond, nanosPerSecond] at *
  omega

/-- A deal that was confirmed before the publish stopped, and its stamp is still in
the window that follows, is in the second of the first deal that was not sent. -/
theorem Polled.resumed {p : Poller} {from_ upper from₂ : Int} {org : List Deal} {ms : List Message}
    {error : Option RunError} {w w' : World} (polled : Polled p from_ upper org ms error w w')
    {k : Nat} {found : Nat} {err : PublishError} (failed : error = some (.publish k found err))
    (start : p.watermark.stored w' = some from₂) {confirmed unconfirmed : Deal}
    (mem : confirmed ∈ (selected (inWindow (truncateSecond from_) upper) org).take k)
    (next : (selected (inWindow (truncateSecond from_) upper) org)[k]? = some unconfirmed)
    (again : truncateSecond from₂ ≤ confirmed.stamp) :
    truncateSecond confirmed.stamp = truncateSecond unconfirmed.stamp := by
  have sorted : confirmed.stamp ≤ unconfirmed.stamp := by
    have stamps := selected_stamps (inWindow (truncateSecond from_) upper) org
    rw [← List.take_append_drop k (selected _ org), List.pairwise_append] at stamps
    have after : unconfirmed ∈ (selected (inWindow (truncateSecond from_) upper) org).drop k := by
      obtain ⟨bound, here⟩ := List.getElem?_eq_some_iff.mp next
      rw [List.drop_eq_getElem_cons bound, here]
      exact List.mem_cons_self
    have le := stamps.2.2 confirmed mem unconfirmed after
    rw [Deal.stamp, Deal.stamp]
    omega
  have positive : 0 < k := by
    rcases Nat.eq_zero_or_pos k with rfl | positive
    · cases mem
    · exact positive
  obtain ⟨built, ⟨same, early⟩ | ⟨resumed, here, mark⟩⟩ := polled.failure k found err failed
  · -- The watermark stayed: both deals are in its second.
    have low := (stamp_of_mem_selected (List.mem_of_mem_take mem)).1
    exact truncateSecond_eq_of_between low sorted (early unconfirmed next positive)
  · -- The watermark is the stamp of the first deal that was not sent, read back.
    cases next.symm.trans here
    rw [SSMWatermark.stored, mark] at start
    have start : parseDateTime (literal unconfirmed.stamp) = some from₂ := start
    rw [parseDateTime_literal] at start
    split at start
    · cases start
      refine truncateSecond_eq_of_between ?_ sorted (le_refl _)
      simp only [truncateSecond, nanosPerSecond] at again ⊢
      omega
    · cases start

/-- A run that follows a stopped publish repeats a confirmed event only within the
second of the first event that was not sent. -/
theorem Sequence.repeats {S : Services} {p : Poller} {w : World} {first second : Pass}
    {rest : List Pass} (sequence : Sequence S p w (first :: second :: rest))
    (distinct : (w.org.map Deal.id).Nodup) {k found : Nat} {err : PublishError}
    (failed : first.error = some (.publish k found err)) {confirmed unconfirmed : Deal}
    (mem : confirmed ∈ first.rows.take k) (next : first.rows[k]? = some unconfirmed) {m : Message}
    (sent : m ∈ second.messages) (key : m.attribute? "event_key" = some (eventKey confirmed)) :
    truncateSecond confirmed.stamp = truncateSecond unconfirmed.stamp := by
  cases sequence with
  | @run _ w₁ result error _ run sequence =>
      cases sequence with
      | @run _ w₂ result₂ error₂ _ run₂ _ =>
          obtain ⟨distinct₁, ways⟩ := exec_run distinct run
          obtain ⟨-, ways₂⟩ := exec_run distinct₁ run₂
          rcases ways with ⟨-, other, -⟩ | ⟨from_, upper, org, ms, polled⟩
          · cases other k found err failed
          rcases ways₂ with ⟨idle, -⟩ | ⟨from₂, upper₂, org₂, ms₂, polled₂⟩
          · rw [(pass_idle ⟨w₁, w₂, result₂, error₂⟩ idle).2.2] at sent
            cases sent
          · obtain ⟨-, rows, -⟩ := pass_polled ⟨w, w₁, result, error⟩ polled
            obtain ⟨-, -, messages⟩ := pass_polled ⟨w₁, w₂, result₂, error₂⟩ polled₂
            rw [rows] at mem next
            rw [messages] at sent
            obtain ⟨d, memD, announces⟩ := polled₂.only m sent
            obtain ⟨built, -⟩ := polled.failure k found err failed
            obtain ⟨ev, event⟩ := built confirmed (List.mem_of_mem_take mem)
            have keys : eventKey d = eventKey confirmed :=
              Option.some.inj (announces.key.1.symm.trans key)
            have same := (eventKey_injective announces.key.2 event.key.2 keys).2
            refine polled.resumed failed polled₂.start mem next ?_
            rw [← same]
            exact (stamp_of_mem_selected memD).1

/-- Successful runs publish every version of a won deal that is current in its
window once, from windows that touch and do not overlap, and an empty window
publishes nothing; each of them queries the window from the stored watermark, if it is open,
and stores its end; and after a publish that stopped, only events of the second in which it
stopped are repeated. -/
theorem windows_tile {S : Services} {p : Poller} {w : World} {passes : List Pass}
    (distinct : (w.org.map Deal.id).Nodup) (sequence : Sequence S p w passes) :
    ((∀ pass ∈ passes, pass.error = none) →
      (∀ pass ∈ passes, ∀ read ∈ pass.reads, ∀ d, InWindow read d → pass.Visible p read d →
        publications passes (eventKey d) = 1) ∧
      ((passes.flatMap Pass.windows).Pairwise fun a b => a.2 ≤ b.1) ∧
      ((passes.flatMap Pass.windows).IsChain fun a b => a.2 = b.1) ∧
      ∀ pass ∈ passes, pass.rows = [] → pass.messages = []) ∧
    (∀ pass ∈ passes, pass.error = none → pass.Advances p) ∧
    ∀ before first second rest k found err,
      passes = before ++ first :: second :: rest → first.error = some (.publish k found err) →
      ∀ confirmed ∈ first.rows.take k, ∀ unconfirmed, first.rows[k]? = some unconfirmed →
        (∃ m ∈ second.messages, m.attribute? "event_key" = some (eventKey confirmed)) →
          truncateSecond confirmed.stamp = truncateSecond unconfirmed.stamp := by
  refine ⟨?_, fun pass mem clean => sequence.advances distinct mem clean, ?_⟩
  · intro clean
    have tiled := sequence.tiled distinct clean
    have announced := forall₂_flatMap tiled.announced
    refine ⟨fun pass mem read memRead d inside visible => ?_, tiled.apart, tiled.touching,
      fun pass mem empty => ?_⟩
    · rcases sequence.pass distinct mem with ⟨idle, -⟩ | ⟨from_, upper, org, ms, polled⟩
      · rw [Pass.reads, idle.reads, List.drop_length] at memRead
        cases memRead
      · have row := mem_rows_of_visible polled memRead inside visible
        exact countP_announces announced tiled.versions (List.mem_flatMap.mpr ⟨pass, mem, row⟩)
    · have all := tiled.announced pass mem
      rw [empty] at all
      exact List.forall₂_nil_left_iff.mp all
  · rintro before first second rest k found err rfl failed confirmed mem unconfirmed next ⟨m, sent, key⟩
    obtain ⟨w', distinct', sequence'⟩ := sequence.after distinct
    exact sequence'.repeats distinct' failed mem next sent key

/-! ### Two runs that touch, and two of which the first stops -/

theorem windowOf_query {from_ upper : Int} (low : Legible from_) (high : Legible upper) (org : List Deal) :
    windowOf (query from_ upper, org) = some (truncateSecond from_, truncateSecond upper) := by
  simp only [windowOf, query, parseDateTime_literal_of_legible low, parseDateTime_literal_of_legible high]

/-- A deal in the second of the early one. -/
def secondDeal : Deal :=
  ⟨"006A00000000003AAA", some "Renewal", some "Closed Won", true, none, none, none, none, 1500⟩

/-- A run over the first ten seconds and one over the next ten. -/
theorem touching_runs (S : Services) : ∃ first second : Pass, first.error = none ∧ second.error = none ∧
    Sequence S earlyPoller { World.empty with org := [earlyDeal, laterDeal] } [first, second] ∧
    first.reads = [(query 0 10000000000, [earlyDeal, laterDeal])] ∧
    second.reads = [(query 10000000000 20000000000, [earlyDeal, laterDeal])] := by
  let w : World := { World.empty with org := [earlyDeal, laterDeal] }
  obtain ⟨result, evs, sqs, -, -, run⟩ := @run_exec_published S S.Answers (Still earlyPoller) earlyPoller
    w w 0 10000000000 10000000000 (admits_answers S _) rfl .refl (by decide) (by decide) (by decide) (by decide)
    [earlyDeal] (by decide) (by decide) (by decide) (by decide)
  let w₁ := marked earlyPoller 10000000000 sqs (queried 0 10000000000 10000000000 w)
  have stored : earlyPoller.watermark.stored w₁ = some 10000000000 := stored_marked (by decide) sqs
  obtain ⟨result', evs', sqs', -, -, run'⟩ := @run_exec_published S S.Answers (Still earlyPoller)
    earlyPoller w₁ w₁ 10000000000 20000000000 20000000000 (admits_answers S _) stored .refl (by decide) (by decide)
    (by decide) (by decide) [laterDeal] rfl (by decide) (by decide) (by decide)
  exact ⟨⟨_, _, result, none⟩, ⟨_, _, result', none⟩, rfl, rfl, .run run (.run run' .nil), rfl, rfl⟩

/-- A run whose publish stops at the second deal, and the next one. -/
theorem stopped_runs (S : Services) : ∃ (first second : Pass) (err : PublishError),
    first.error = some (.publish 1 2 err) ∧ second.error = none ∧
    Sequence S earlyPoller { World.empty with org := [earlyDeal, secondDeal] } [first, second] ∧
    first.reads = [(query 0 10000000000, [earlyDeal, secondDeal])] ∧
    second.reads = [(query 1000000000 20000000000, [earlyDeal, secondDeal])] ∧
    second.before.org = [earlyDeal, secondDeal] ∧ Sequence S earlyPoller second.before [second] := by
  let w : World := { World.empty with org := [earlyDeal, secondDeal] }
  obtain ⟨result, err, sqs, run⟩ := @run_exec_stopped S (Still earlyPoller) earlyPoller w w 0 10000000000
    10000000000 rfl .refl (by decide) (by decide) (by decide) (by decide) [earlyDeal, secondDeal] (by decide)
    (by decide) (by decide) 1 secondDeal rfl (by decide) (by decide)
  let w₁ := marked earlyPoller 1500000000 sqs (queried 0 10000000000 10000000000 w)
  have stored : earlyPoller.watermark.stored w₁ = some 1000000000 := stored_marked (by decide) sqs
  obtain ⟨result', evs', sqs', -, -, run'⟩ := @run_exec_published S S.Answers (Still earlyPoller)
    earlyPoller w₁ w₁ 1000000000 20000000000 20000000000 (admits_answers S _) stored .refl (by decide) (by decide)
    (by decide) (by decide) [earlyDeal, secondDeal] rfl (by decide) (by decide) (by decide)
  exact ⟨⟨_, _, result, _⟩, ⟨_, _, result', none⟩, err, rfl, rfl, .run run (.run run' .nil), rfl, rfl, rfl,
    .run run' .nil⟩

/-- Of the runs that touch, each publishes its own deal and moves the watermark on; the run after
the one that stopped repeats the deal that shares its second with the unsent one. -/
theorem windows_tile_early :
    (∃ first second : Pass, first.error = none ∧ second.error = none ∧ first.windows = [(0, 10000000000)] ∧
      second.windows = [(10000000000, 20000000000)] ∧ first.Advances earlyPoller ∧
      second.Advances earlyPoller ∧ publications [first, second] (eventKey earlyDeal) = 1 ∧
      publications [first, second] (eventKey laterDeal) = 1) ∧
    ∃ (first second : Pass) (err : PublishError), first.error = some (.publish 1 2 err) ∧ second.error = none ∧
      first.rows = [earlyDeal, secondDeal] ∧
      (∃ m ∈ second.messages, m.attribute? "event_key" = some (eventKey earlyDeal)) ∧
      truncateSecond earlyDeal.stamp = truncateSecond secondDeal.stamp := by
  constructor
  · obtain ⟨first, second, clean, clean', sequence, reads, reads'⟩ := touching_runs ⟨fun _ => 0⟩
    have distinct : ([earlyDeal, laterDeal].map Deal.id).Nodup := by decide
    obtain ⟨tile, advance, -⟩ := windows_tile distinct sequence
    have window := windowOf_query (show Legible 0 by decide) (show Legible 10000000000 by decide)
      [earlyDeal, laterDeal]
    have window' := windowOf_query (show Legible 10000000000 by decide) (show Legible 20000000000 by decide)
      [earlyDeal, laterDeal]
    have published := (tile (by simp [clean, clean'])).1
    refine ⟨first, second, clean, clean', ?_, ?_, advance first (by simp) clean, advance second (by simp) clean',
      ?_, ?_⟩
    · simp only [Pass.windows, reads, List.filterMap_cons, window, List.filterMap_nil]
      rfl
    · simp only [Pass.windows, reads', List.filterMap_cons, window', List.filterMap_nil]
      rfl
    · refine published first (by simp) (query 0 10000000000, [earlyDeal, laterDeal]) (by simp [reads]) earlyDeal
        ⟨_, window, rfl, by decide, by decide⟩ fun _ => by simp
    · refine published second (by simp) (query 10000000000 20000000000, [earlyDeal, laterDeal]) (by simp [reads'])
        laterDeal ⟨_, window', rfl, by decide, by decide⟩ fun _ => by simp
  · obtain ⟨first, second, err, failed, clean, sequence, reads, reads', org, alone⟩ := stopped_runs ⟨fun _ => 0⟩
    have distinct : ([earlyDeal, secondDeal].map Deal.id).Nodup := by decide
    have window := windowOf_query (show Legible 0 by decide) (show Legible 10000000000 by decide)
      [earlyDeal, secondDeal]
    have window' := windowOf_query (show Legible 1000000000 by decide) (show Legible 20000000000 by decide)
      [earlyDeal, secondDeal]
    have rows : first.rows = [earlyDeal, secondDeal] := by
      simp only [Pass.rows, reads, List.flatMap_cons, rowsOf, window, List.flatMap_nil]
      rfl
    obtain ⟨tile, -, -⟩ := windows_tile (by rw [org]; decide) alone
    have once : publications [second] (eventKey earlyDeal) = 1 :=
      (tile (by simp [clean])).1 second (by simp) (query 1000000000 20000000000, [earlyDeal, secondDeal])
        (by simp [reads']) earlyDeal ⟨_, window', rfl, by decide, by decide⟩ fun _ => by simp
    have again : ∃ m ∈ second.messages, m.attribute? "event_key" = some (eventKey earlyDeal) := by
      have positive : 0 < second.messages.countP fun m => m.attribute? "event_key" = some (eventKey earlyDeal) := by
        rw [publications, List.flatMap_singleton] at once
        omega
      obtain ⟨m, mem, key⟩ := List.countP_pos_iff.mp positive
      exact ⟨m, mem, of_decide_eq_true key⟩
    obtain ⟨-, -, repeats⟩ := windows_tile distinct sequence
    exact ⟨first, second, err, failed, clean, rows, again, repeats [] first second [] 1 2 err rfl failed earlyDeal
      (by simp [rows]) secondDeal (by rw [rows]; rfl) again⟩

end Relay.Ingest
