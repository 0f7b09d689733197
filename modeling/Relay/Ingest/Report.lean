import Relay.Effect.Calls
import Relay.Ingest.NoSkip

/-!
What a run reports and what it left behind.

`to_` is set before the watermark is written, and only the branch that publishes
nothing sets it back. So a run reports the stored watermark except when a write
failed and was not applied (`reports_iff`): the result then names the watermark
that the run meant to leave.
-/

namespace Relay.Ingest

open Relay.Json Relay.Effect Relay.Platform Relay.Salesforce Relay.Events Relay.Data Relation

/-- The watermark is `t` as far as a literal shows it. -/
def Reports (p : Poller) (t : Int) (w : World) : Prop :=
  w.parameters p.watermark.name = some (literal t) ∨
    ∃ stored, p.watermark.stored w = some stored ∧ literal stored = literal t

/-- A failed write, not applied, of another second than the one that is stored. -/
def Loses (from_ : Int) : (request : Request) → request.Answer → World → Prop
  | .putParameter name value, .error _, after =>
      value ≠ literal from_ ∧ after.parameters name ≠ some value
  | _, _, _ => False

abbrev Record := List (Occurrence World Request.Answer)

/-- No write of the record was lost. -/
def Kept (from_ : Int) (past : Record) : Prop := ∀ o ∈ past, ¬ Loses from_ o.request o.reply o.after

/-- Nobody else writes the watermark. -/
def Undisturbed (p : Poller) (w w' : World) : Prop :=
  w'.parameters p.watermark.name = w.parameters p.watermark.name

/-- A call that is no write of a parameter. -/
def Unwriting : Request → Prop
  | .putParameter _ _ => False
  | _ => True

/-! ### The calls before the watermark is written -/

theorem unwriting_queryAll (soql : Soql) : Calls Unwriting (queryAll soql) := by
  refine .perform_bind trivial fun reply => ?_
  split
  · exact .ret _
  · exact .ret _

section Runs

variable {S : Services} {p : Poller} {from_ : Int} {s s' : World × Record}

/-- A run up to here has written nothing, so the watermark is the one it read. -/
structure Untouched (p : Poller) (from_ : Int) (s : World × Record) : Prop where
  stored : p.watermark.stored s.1 = some from_
  kept : Kept from_ s.2

abbrev Records (S : Services) (p : Poller) {α : Type} (program : Act α) (s : World × Record) (value : α)
    (s' : World × Record) : Prop :=
  Exec (Recorded S.Answers) (Unrecorded (Undisturbed p)) program s value s'

theorem stored_congr {w w' : World} (same : w'.parameters p.watermark.name = w.parameters p.watermark.name) :
    p.watermark.stored w' = p.watermark.stored w := by
  rw [SSMWatermark.stored, SSMWatermark.stored, same]

theorem Untouched.moves (untouched : Untouched p from_ s) (moved : Unrecorded (Undisturbed p) s s') :
    Untouched p from_ s' where
  stored := (stored_congr moved.1).trans untouched.stored
  kept := by
    rw [moved.2]
    exact untouched.kept

theorem parameters_of_unwriting {request : Request} (quiet : Unwriting request) {w w' : World}
    {reply : request.Answer} (answered : S.Answers request w reply w') : w'.parameters = w.parameters := by
  cases request with
  | putParameter name value => cases quiet
  | transactWriteItems items =>
      obtain ⟨erp, -, rfl⟩ := answered
      rfl
  | receiveMessage queue count =>
      obtain ⟨sqs, -, rfl⟩ := answered
      rfl
  | sendMessage queue body attributes =>
      obtain ⟨sqs, -, rfl⟩ := answered
      rfl
  | sendMessageBatch queue entries =>
      obtain ⟨sqs, -, rfl⟩ := answered
      rfl
  | deleteMessage queue receipt =>
      obtain ⟨sqs, -, rfl⟩ := answered
      rfl
  | deleteMessageBatch queue receipts =>
      obtain ⟨sqs, -, rfl⟩ := answered
      rfl
  | serverTime =>
      obtain rfl := answered
      rfl
  | queryAll soql =>
      cases reply with
      | error message =>
          obtain rfl : w' = w := answered
          rfl
      | ok rows =>
          obtain ⟨-, rfl⟩ := answered
          rfl
  | getItem table key => rw [answered.1]
  | scan table start => rw [answered.1]
  | getParameter name => rw [answered.1]
  | random => rw [answered.1]
  | changeMessageVisibility queue receipt seconds => rw [show w' = w from answered]
  | getParameters names => rw [show w' = w from answered]
  | utcNow => rw [show w' = w from answered]
  | timeNow => rw [show w' = w from answered]
  | remainingTime => rw [show w' = w from answered]

theorem not_loses_of_unwriting {request : Request} (quiet : Unwriting request) (reply : request.Answer)
    (w : World) : ¬ Loses from_ request reply w := by
  cases request with
  | putParameter name value => cases quiet
  | _ => exact id

/-- Programs that write no parameter leave the watermark as it was read. -/
theorem Untouched.run {α : Type} {program : Act α} {value : α} (calls : Calls Unwriting program)
    (run : Records S p program s value s') (untouched : Untouched p from_ s) : Untouched p from_ s' := by
  refine calls.invariant ?_ (fun _ _ moved start => start.moves moved) run untouched
  intro request s reply s' quiet answered start
  refine ⟨?_, ?_⟩
  · rw [← start.stored]
    exact stored_congr (congrFun (parameters_of_unwriting quiet answered.1) _)
  · intro o mem
    rw [answered.2] at mem
    rcases List.mem_append.mp mem with mem | mem
    · exact start.kept o mem
    · obtain rfl := List.mem_singleton.mp mem
      exact not_loses_of_unwriting quiet _ _

theorem Untouched.reports (untouched : Untouched p from_ s) : Reports p from_ s.1 ↔ Kept from_ s.2 :=
  iff_of_true (.inr ⟨from_, untouched.stored, rfl⟩) untouched.kept

/-! ### The write of the watermark -/

theorem kept_append {past : Record} (kept : Kept from_ past) (o : Occurrence World Request.Answer) :
    Kept from_ (past ++ [o]) ↔ ¬ Loses from_ o.request o.reply o.after := by
  constructor
  · exact fun all => all o (List.mem_append_right _ List.mem_cons_self)
  · intro here o' mem
    rcases List.mem_append.mp mem with mem | mem
    · exact kept o' mem
    · obtain rfl := List.mem_singleton.mp mem
      exact here

/-- After a write the new watermark is stored, or the write was lost. -/
theorem set_reports {t : Int} {result : Except String Unit} (untouched : Untouched p from_ s)
    (run : Records S p (p.watermark.set t) s result s') : Reports p t s'.1 ↔ Kept from_ s'.2 := by
  have call : Records S p (Prog.perform (.putParameter p.watermark.name (literal t)) >>= .ret) s result s' := run
  obtain ⟨s₁, reply, s₂, moved, ⟨⟨either, stores⟩, recorded⟩, done⟩ := Exec.of_perform_bind call
  obtain ⟨rfl, rfl⟩ := Exec.of_ret done
  have before : Untouched p from_ s₁ := by
    clear either stores recorded
    induction moved with
    | refl => exact untouched
    | tail _ move ih => exact ih.moves move
  rw [recorded, kept_append before.kept]
  cases result with
  | ok done =>
      have stored := stores rfl
      refine iff_of_true (.inl ?_) id
      rw [stored]
      exact Function.update_self _ _ _
  | error message =>
      show Reports p t s'.1 ↔ ¬ (literal t ≠ literal from_ ∧ s'.1.parameters p.watermark.name ≠ some (literal t))
      by_cases applied : s'.1.parameters p.watermark.name = some (literal t)
      · exact iff_of_true (.inl applied) fun lost => lost.2 applied
      · have unchanged : s'.1 = s₁.1 := by
          rcases either with same | written
          · exact same
          · rw [written] at applied
            exact absurd (Function.update_self _ _ _) applied
        have stored : p.watermark.stored s'.1 = some from_ := by
          rw [unchanged]
          exact before.stored
        constructor
        · rintro (written | ⟨other, here, same⟩) lost
          · exact applied written
          · cases stored.symm.trans here
            exact lost.1 same.symm
        · intro kept
          have same : literal t = literal from_ := by
            by_contra other
            exact kept ⟨other, applied⟩
          exact .inr ⟨from_, stored, same.symm⟩

/-! ### The run -/

theorem finish_reports {upper : Int} {evs : List Event} {sent : Nat} {pubErr : Option PublishError}
    {result : Result} {error : Option RunError} (untouched : Untouched p from_ s)
    (run : Records S p (p.finish from_ upper evs sent pubErr) s (result, error) s') :
    Reports p result.to_ s'.1 ↔ Kept from_ s'.2 := by
  unfold Poller.finish at run
  cases pubErr with
  | none =>
      obtain ⟨written, s₁, set, rest⟩ := Exec.of_bind run
      have reports := set_reports untouched set
      cases written with
      | error message =>
          obtain ⟨same, rfl⟩ := Exec.of_ret rest
          cases same
          exact reports
      | ok done =>
          obtain ⟨same, rfl⟩ := Exec.of_ret rest
          cases same
          exact reports
  | some err =>
      dsimp only at run
      split at run
      · obtain ⟨written, s₁, set, rest⟩ := Exec.of_bind run
        have reports := set_reports untouched set
        cases written with
        | error message =>
            obtain ⟨same, rfl⟩ := Exec.of_ret rest
            cases same
            exact reports
        | ok done =>
            obtain ⟨same, rfl⟩ := Exec.of_ret rest
            cases same
            exact reports
      · obtain ⟨same, rfl⟩ := Exec.of_ret run
        cases same
        exact untouched.reports

theorem publishRows_reports {upper : Int} {rows : List (Salesforce.Opportunity Token)} {result : Result}
    {error : Option RunError} (untouched : Untouched p from_ s)
    (run : Records S p (p.publishRows from_ upper rows) s (result, error) s')
    (returned : error ≠ some .panic) : Reports p result.to_ s'.1 ↔ Kept from_ s'.2 := by
  obtain ⟨built, s₁, build, rest⟩ := Exec.of_bind run
  have untouched₁ := untouched.run (calls_buildEvents trivial rows) build
  cases built with
  | error err =>
      obtain ⟨same, rfl⟩ := Exec.of_ret rest
      cases same
      exact untouched₁.reports
  | ok evs =>
      obtain ⟨⟨sent, pubErr⟩, s₂, publishes, rest⟩ := Exec.of_bind rest
      have untouched₂ := untouched₁.run (calls_publishFrom _ (fun _ _ => trivial) _) publishes
      dsimp only at rest
      split at rest
      · exact finish_reports untouched₂ rest
      · obtain ⟨same, -⟩ := Exec.of_ret rest
        cases same
        exact absurd rfl returned

/-- The watermark that is read is the stored one. -/
theorem get_reads {w : World} {past : Record} {read : Except String Int} (start : p.watermark.stored w = some from_)
    (run : Records S p p.watermark.get (w, past) read s') : ∀ t, read = .ok t → t = from_ := by
  obtain ⟨s₁, reply, s₂, moved, ⟨⟨-, shows⟩, -⟩, rest⟩ := Exec.of_perform_bind run
  have stored : p.watermark.stored s₁.1 = some from_ := by
    clear shows rest
    induction moved with
    | refl => exact start
    | tail _ move ih => exact (stored_congr move.1).trans ih
  rintro t rfl
  rw [SSMWatermark.stored] at stored
  rcases reply with (_ | err) | value
  · have none_ : s₁.1.parameters p.watermark.name = none := shows
    rw [none_] at stored
    obtain ⟨same, -⟩ := Exec.of_ret rest
    cases same
    exact Option.some.inj stored
  · obtain ⟨same, -⟩ := Exec.of_ret rest
    cases same
  · have some_ : s₁.1.parameters p.watermark.name = some value := shows
    rw [some_] at stored
    obtain ⟨same, -⟩ := Exec.of_ret rest
    unfold readDateTime at same
    split at same
    · rename_i parsed
      cases same
      exact Option.some.inj (parsed.symm.trans stored)
    · cases same

end Runs

/-- A run that read its watermark and returns reports the stored one if and only
if no write of another second was lost. -/
theorem reports_iff {S : Services} {p : Poller} {w w' : World} {past : Record} {from_ : Int}
    {result : Result} {error : Option RunError} (start : p.watermark.stored w = some from_)
    (run : Exec (Recorded S.Answers) (Unrecorded (Undisturbed p)) p.run (w, []) (result, error) (w', past))
    (read : ∀ message, error ≠ some (.readWatermark message)) (returned : error ≠ some .panic) :
    Reports p result.to_ w' ↔ Kept from_ past := by
  have untouched : Untouched p from_ (w, []) := ⟨start, by simp [Kept]⟩
  obtain ⟨got, s₁, get, rest⟩ := Exec.of_bind run
  have gets : Calls Unwriting p.watermark.get := by
    refine .perform_bind trivial fun reply => ?_
    split <;> exact .ret _
  have untouched₁ := untouched.run gets get
  cases got with
  | error err =>
      obtain ⟨same, -⟩ := Exec.of_ret rest
      cases same
      exact absurd rfl (read err)
  | ok t =>
      obtain rfl := get_reads start get t rfl
      obtain ⟨time, s₂, clock, rest⟩ := Exec.of_bind rest
      have asks : Calls Unwriting Act.serverTime := ⟨trivial, fun _ => .ret _⟩
      have untouched₂ := untouched₁.run asks clock
      cases time with
      | error err =>
          obtain ⟨same, rfl⟩ := Exec.of_ret rest
          cases same
          exact untouched₂.reports
      | ok serverNow =>
          dsimp only at rest
          split at rest
          · obtain ⟨same, rfl⟩ := Exec.of_ret rest
            cases same
            exact untouched₂.reports
          · obtain ⟨queried, s₃, rows, rest⟩ := Exec.of_bind rest
            have untouched₃ := untouched₂.run (unwriting_queryAll _) rows
            cases queried with
            | error err =>
                obtain ⟨same, rfl⟩ := Exec.of_ret rest
                cases same
                exact untouched₃.reports
            | ok rows => exact publishRows_reports untouched₃ rest returned

/-! ### A write that times out -/

/-- A world in which the watermark was written. -/
def startedWorld : World := marked earlyPoller 0 Sqs.State.empty World.empty

theorem stored_started : earlyPoller.watermark.stored startedWorld = some 0 := stored_marked (by decide) _

/-- A run over the first second of an empty org whose write fails, applied or not. -/
theorem timedOut_exec (S : Services) (env : World → World → Prop) {parameters : String → Option String}
    (either : parameters = startedWorld.parameters ∨
      parameters = Function.update startedWorld.parameters earlyPoller.watermark.name (some (literal 1000000000))) :
    ∃ w' : World, w'.parameters = parameters ∧ Exec S.Answers env earlyPoller.run startedWorld
      (⟨0, 1000000000, 0, 0, []⟩, some (.writeWatermark "timeout")) w' := by
  obtain ⟨rows, decoded, runs⟩ := @run_exec S S.Answers env earlyPoller startedWorld startedWorld 0 1000000000
    1000000000 (admits_answers S _) stored_started .refl (by decide) (by decide) (by decide) (by decide)
  have none_ : selected (inWindow (truncateSecond 0) 1000000000) startedWorld.org = [] := rfl
  rw [none_] at decoded
  cases decoded
  let w : World := queried 0 1000000000 1000000000 startedWorld
  have put : Exec S.Answers env (earlyPoller.watermark.set 1000000000) w (.error "timeout")
      { w with parameters := parameters } := by
    have answered : S.Answers (.putParameter earlyPoller.watermark.name (literal 1000000000)) w
        (.error "timeout") { w with parameters := parameters } := by
      refine ⟨?_, fun done => by cases done⟩
      rcases either with rfl | rfl
      · exact .inl rfl
      · exact .inr rfl
    exact .call .refl answered .ret
  exact ⟨_, rfl, runs _ _ (put.bind .ret)⟩

/-- The write was applied although it failed, and the run reports it. -/
theorem reports_applied : ∃ w' past,
    Exec (Recorded (⟨fun _ => 0⟩ : Services).Answers) (Unrecorded (Undisturbed earlyPoller)) earlyPoller.run
      (startedWorld, []) (⟨0, 1000000000, 0, 0, []⟩, some (.writeWatermark "timeout")) (w', past) ∧
    Kept 0 past := by
  obtain ⟨w', stored, run⟩ := timedOut_exec ⟨fun _ => 0⟩ (Undisturbed earlyPoller) (.inr rfl)
  obtain ⟨past, run⟩ := run.recorded []
  have reports : Reports earlyPoller 1000000000 w' := by
    refine .inl ?_
    rw [stored]
    exact Function.update_self _ _ _
  exact ⟨w', past, run, (reports_iff stored_started run (by simp) (by simp)).mp reports⟩

/-- The write was not applied: the run reports the next second, and the first is stored. -/
theorem not_reports_timedOut : ∃ w', Exec (⟨fun _ => 0⟩ : Services).Answers (Undisturbed earlyPoller)
      earlyPoller.run startedWorld
      (⟨0, 1000000000, 0, 0, []⟩, some (.writeWatermark "timeout")) w' ∧
    startedWorld.parameters earlyPoller.watermark.name = some (literal 0) ∧
    earlyPoller.watermark.stored startedWorld = some (truncateSecond 0) ∧
    ¬ Reports earlyPoller 1000000000 w' := by
  obtain ⟨w', stored, run⟩ := timedOut_exec ⟨fun _ => 0⟩ (Undisturbed earlyPoller) (.inl rfl)
  have second : startedWorld.parameters earlyPoller.watermark.name = some (literal 0) := by
    simp [startedWorld, marked]
  have apart : literal 0 ≠ literal 1000000000 := by
    intro same
    have reads := congrArg parseDateTime same
    rw [parseDateTime_literal, parseDateTime_literal] at reads
    revert reads
    decide
  refine ⟨w', run, second, stored_started, ?_⟩
  rintro (written | ⟨t, here, same⟩)
  · rw [stored, second] at written
    exact apart (Option.some.inj written)
  · have kept : earlyPoller.watermark.stored w' = earlyPoller.watermark.stored startedWorld := by
      rw [SSMWatermark.stored, SSMWatermark.stored, stored]
    rw [kept, stored_started] at here
    obtain rfl := Option.some.inj here
    exact apart same

end Relay.Ingest
