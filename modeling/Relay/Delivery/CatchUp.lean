import Relay.Calendar.Order
import Relay.Delivery.Drain
import Relay.Delivery.EndToEnd
import Relay.Ingest.Windows

/-!
One poll and one drain catch up with Salesforce.

A poll on services that work publishes its whole window and moves the watermark to
its end, or finds it there (`poll_ends`). After it, the cycles that empty the main
queue bring every won deal below that end to the ERP or the DLQ, whatever was lost,
repeated or left half done before (`caught_up`).
-/

namespace Relay.Delivery

open Relay.Effect Relay.Platform Relay.Python Relay.Salesforce Relay.Calendar Relay.Worker Relay.Erp
  Relay.Sqs Relation

/-- Salesforce's clock shows `since` or later. -/
def Punctual (lag since : Int) : (request : Request) → request.Answer → Prop
  | .serverTime, reply => ∃ now, reply = .ok now ∧ since ≤ now ∧ Ingest.Legible (now - lag)
  | _, _ => True

/-- The answers of services that work, from some time on. -/
def Timely (S : Services) (settings : Settings) (lag since : Int) (request : Request) (w : World)
    (reply : request.Answer) (w' : World) : Prop :=
  Serves S settings request w reply w' ∧ Punctual lag since request reply

theorem legible_of_between {low high t : Int} (lower : Ingest.Legible low) (upper : Ingest.Legible high)
    (ge : low ≤ t)    (lt : t < high) : Ingest.Legible t := by
  have first := yearOf_mono (show low / nanosPerSecond ≤ t / nanosPerSecond by
    rw [nanosPerSecond]; omega)
  have second := yearOf_mono (show t / nanosPerSecond ≤ high / nanosPerSecond by
    rw [nanosPerSecond]; omega)
  exact ⟨lower.1.trans first, second.trans upper.2⟩

theorem truncateSecond_mono {t t' : Int} (le : t ≤ t') : truncateSecond t ≤ truncateSecond t' := by
  rw [truncateSecond, truncateSecond, nanosPerSecond]
  omega

theorem truncateSecond_idem (t : Int) : truncateSecond (truncateSecond t) = truncateSecond t := by
  rw [truncateSecond, truncateSecond, nanosPerSecond]
  omega

theorem legible_truncateSecond {t : Int} (legible : Ingest.Legible t) : Ingest.Legible (truncateSecond t) := by
  have same : truncateSecond t / nanosPerSecond = t / nanosPerSecond := by
    rw [truncateSecond, nanosPerSecond]
    omega
  rw [Ingest.Legible, same]
  exact legible

/-! ### One poll -/

section Poll

variable {S : Services} {settings : Settings} {p : Ingest.Poller} {since : Int} {w w' : World}

theorem outside_mark (moves : ReflTransGen (Outside p) w w') :
    w'.parameters p.watermark.name = w.parameters p.watermark.name := by
  induction moves with
  | refl => rfl
  | tail _ move ih =>
      cases move with
      | produce => exact ih
      | park => exact ih
      | elsewhere _ _ _ same => exact same.trans ih

theorem stored_congr (same : w'.parameters p.watermark.name = w.parameters p.watermark.name) :
    p.watermark.stored w' = p.watermark.stored w := by
  rw [Ingest.SSMWatermark.stored, Ingest.SSMWatermark.stored, same]

/-- A watermark that can be read is read. -/
theorem get_ends {from_ : Int} {got : Except String Int} (mark : p.watermark.stored w = some from_)
    (run : Exec (Timely S settings p.lag since) (Outside p) p.watermark.get w got w') :
    got = .ok from_ ∧ p.watermark.stored w' = some from_ := by
  obtain ⟨w₁, reply, w₂, moves, ⟨⟨⟨rfl, value⟩, faultless⟩, -⟩, done⟩ := Exec.of_perform_bind run
  rw [← stored_congr (outside_mark moves)] at mark
  rcases reply with (_ | err) | text
  · obtain ⟨rfl, rfl⟩ := Exec.of_ret done
    rw [Ingest.SSMWatermark.stored, value] at mark
    cases mark
    exact ⟨rfl, by rw [Ingest.SSMWatermark.stored, value]⟩
  · exact absurd rfl (faultless err)
  · obtain ⟨rfl, rfl⟩ := Exec.of_ret done
    have parsed := mark
    rw [Ingest.SSMWatermark.stored, value] at parsed
    simp only at parsed
    exact ⟨by rw [Ingest.readDateTime, parsed], mark⟩

/-- Rows whose stamps can be read become events. -/
theorem returns_buildEvents_ok {rows : List (Salesforce.Opportunity Json.Token)}
    (read : ∀ row ∈ rows, ∃ stamp, parseDateTime row.systemModstamp = some stamp) :
    Returns (fun built => ∃ evs, built = .ok evs) (Ingest.buildEvents rows) := by
  induction rows with
  | nil => exact ⟨[], rfl⟩
  | cons row rest ih =>
      intro now
      obtain ⟨stamp, parsed⟩ := read row List.mem_cons_self
      obtain ⟨ev, built⟩ : ∃ ev, Events.fromOpportunity row now = some ev := by
        rw [Events.fromOpportunity, parsed]
        exact ⟨_, rfl⟩
      simp only [Prog.bind, built]
      refine (ih fun row mem => read row (List.mem_cons_of_mem _ mem)).bind fun result ok => ?_
      obtain ⟨evs, rfl⟩ := ok
      exact ⟨ev :: evs, rfl⟩

/-- All batches are accepted. -/
theorem publishFrom_ends {env : World → World → Prop} {total : Nat} {chunks : List (List Ingest.Event)}
    {result : Int × Option Ingest.PublishError} {start : Nat}
    (run : Exec (Timely S settings p.lag since) env (Ingest.publishFrom total start chunks) w result w') :
    result = ((total : Int), none) := by
  induction chunks generalizing start w with
  | nil => exact (Exec.of_ret run).1
  | cons chunk rest ih =>
      obtain ⟨w₁, reply, w₂, -, ⟨⟨-, out, rfl, none_⟩, -⟩, run⟩ := Exec.of_perform_bind run
      simp only [none_] at run
      exact ih run

/-- The rows of deals can be decoded. -/
theorem unmarshalAll_rows (deals : List Deal) :
    ∃ rows, unmarshalAll (deals.map fun d => d.row.json) = .ok rows := by
  induction deals with
  | nil => exact ⟨[], rfl⟩
  | cons d rest ih =>
      obtain ⟨rows, decoded⟩ := ih
      obtain ⟨o, one⟩ : ∃ o, Salesforce.Opportunity.unmarshal d.row.json = .ok o :=
        ⟨_, unmarshal_row _⟩
      refine ⟨o :: rows, ?_⟩
      rw [List.map_cons, unmarshalAll, one, decoded]
      rfl

/-- The window of a poll is read and built. -/
theorem rows_end {env : World → World → Prop} {from_ upper : Int} (lower : Ingest.Legible from_)
    (higher : Ingest.Legible upper)    {result : Except String (List (Salesforce.Opportunity Json.Token))}
    (run : Exec (Timely S settings p.lag since) env (queryAll (Ingest.query from_ upper)) w result w') :
    ∃ rows, result = .ok rows ∧
      ∀ row ∈ rows, ∃ stamp, parseDateTime row.systemModstamp = some stamp := by
  obtain ⟨w₁, reply, w₂, -, ⟨⟨answered, faultless⟩, -⟩, done⟩ := Exec.of_perform_bind run
  have low := Ingest.parseDateTime_literal_of_legible lower
  have high := Ingest.parseDateTime_literal_of_legible higher
  obtain ⟨records, rfl⟩ := faultless _ ⟨_, _, low, high, rfl⟩
  obtain ⟨⟨low', high', parsed, parsed', rfl⟩, -⟩ := answered
  cases low.symm.trans parsed
  cases high.symm.trans parsed'
  obtain ⟨rows, decoded⟩ := unmarshalAll_rows
    (selected (inWindow (truncateSecond from_) (truncateSecond upper)) w₁.org)
  obtain ⟨rfl, -⟩ := Exec.of_ret done
  refine ⟨rows, decoded, fun row mem => ?_⟩
  obtain ⟨d, memD, same⟩ := Ingest.exists_of_forall₂ (Ingest.forall₂_unmarshalAll decoded).flip mem
  have inside := (mem_selected.mp memD).2
  simp only [inWindow, Bool.and_eq_true, decide_eq_true_eq] at inside
  rw [unmarshal_row] at same
  cases same
  have shown_ := legible_of_between (legible_truncateSecond lower) (legible_truncateSecond higher)
    inside.1.2 inside.2
  have seconds : d.stamp / nanosPerSecond = d.systemModstamp / 1000 := by
    rw [Deal.stamp, nanosPerSecond]
    omega
  rw [Ingest.Legible, seconds] at shown_
  exact ⟨1000000 * d.systemModstamp, (parseDateTime_wireText _).trans (if_pos shown_)⟩

/-- A poll on services that work leaves the watermark at the end of its window or beyond. -/
theorem poll_ends {from_ : Int} {result : Ingest.Result × Option Ingest.RunError}
    (mark : p.watermark.stored w = some from_) (legible : Ingest.Legible from_)
    (run : Exec (Timely S settings p.lag since) (Outside p) p.run w result w') :
    result.2 = none ∧
      ∃ t, p.watermark.stored w' = some t ∧ truncateSecond (since - p.lag) ≤ t := by
  obtain ⟨got, w₁, reading, run⟩ := Exec.of_bind run
  obtain ⟨rfl, mark₁⟩ := get_ends mark reading
  obtain ⟨w₂, reply, w₃, moves, ⟨⟨served, -⟩, now, rfl, late, year⟩, run⟩ := Exec.of_perform_bind run
  have mark₃ : p.watermark.stored w₃ = some from_ := by
    rw [served]
    exact (stored_congr (outside_mark moves)).trans mark₁
  have horizon : truncateSecond (since - p.lag) ≤ truncateSecond (now - p.lag) :=
    truncateSecond_mono (by omega)
  dsimp only at run
  split at run
  · rename_i empty
    obtain ⟨rfl, rfl⟩ := Exec.of_ret run
    exact ⟨rfl, from_, mark₃, horizon.trans empty⟩
  · obtain ⟨answered, w₄, querying, run⟩ := Exec.of_bind run
    obtain ⟨rows, rfl, read⟩ := rows_end legible (legible_truncateSecond year) querying
    obtain ⟨built, w₅, building, run⟩ := Exec.of_bind run
    obtain ⟨evs, rfl⟩ := (returns_buildEvents_ok read).exec building
    obtain ⟨sent, w₆, publishing, run⟩ := Exec.of_bind run
    obtain rfl := publishFrom_ends publishing
    simp only [Int.natCast_nonneg, le_refl, and_self, if_true] at run
    obtain ⟨w₇, reply, w₈, -, ⟨⟨⟨-, stores⟩, rfl⟩, -⟩, run⟩ := Exec.of_perform_bind run
    obtain ⟨rfl, rfl⟩ := Exec.of_ret run
    refine ⟨rfl, truncateSecond (now - p.lag), ?_, horizon⟩
    rw [stores rfl, Ingest.SSMWatermark.stored]
    simp only [Function.update_self]
    rw [Ingest.parseDateTime_literal_of_legible (legible_truncateSecond year), truncateSecond_idem]

end Poll

/-! ### One poll and one drain -/

/-- What happens around the cycles that drain: others write to the ERP, and deals change as the
lag allows. -/
def Quiet (p : Ingest.Poller) (w w' : World) : Prop := Aside w w' ∧ Ingest.Moves p.lag w w'

/-- The ERP stores the deal's order at its stamp or a newer one, or the deal's message is in the
DLQ: it maps to no order, or it was there before the drain. -/
def Arrived (rt : Runtime) (before after : World) (d : Deal) : Prop :=
  StoredFrom after.erp d.id d.systemModstamp ∨
    ∃ ev, Ingest.IsEventOf d ev ∧ ∃ m ∈ after.sqs.queue .deadLetters, m.body = Events.marshal ev ∧
      ((∃ exc, orderOf rt m.body = .error exc) ∨ m ∈ before.sqs.queue .deadLetters)

section CatchUp

variable {S : Services} {rt : Runtime} {settings : Settings} {p : Ingest.Poller} {initial since : Int}

theorem exists_timely {lag : Int} (year : Ingest.Legible (since - lag)) (request : Request) (w : World) :
    ∃ reply w', Timely S settings lag since request w reply w' := by
  cases request with
  | serverTime => exact ⟨.ok since, _, ⟨rfl, since, rfl⟩, since, rfl, le_refl since, year⟩
  | _ =>
      obtain ⟨reply, w', served⟩ := exists_serves S settings _ w
      exact ⟨reply, w', served, trivial⟩

theorem moves_quiet {α : Type} {program : Act α} {w w' : World} {value : α}
    (run : Exec (Serves S settings) (Quiet p) program w value w') : Ingest.Moves p.lag w w' := by
  obtain ⟨calls, run⟩ := run.traced
  exact Traced.along (Ingest.Moves p.lag) (Ingest.Moves.refl p.lag) Ingest.Moves.trans
    (fun _ _ quiet => quiet.2) (fun _ _ _ _ _ served => moves_answers served.1) (Calls.any program) run

theorem arrived_of_drain (deep : 2 ≤ rt.depth) {w w' : World} (inv : (pipeline S rt p initial).inv w)
    {t : Int} (stored : p.watermark.stored w = some t)
    (readable : ∀ m ∈ w.sqs.queue .main, Readable rt m.body) {n : Nat}
    (enough : (w.sqs.queue .main).length ≤ n)
    (run : Exec (Serves S settings) (Quiet p) (cycles rt settings n) w () w') {d : Deal}
    (here : d ∈ w'.org) (won : d.isWon = true) (low : initial ≤ d.stamp) (high : d.stamp < t) :
    Arrived rt w w' d := by
  have safe := inv.1 t stored
  obtain ⟨empty, drains⟩ := drained inv.2 readable enough (run.weaken fun _ _ quiet => quiet.1)
  have closed : Ingest.Closed p.lag t w := safe.closed.resolve_left (by omega)
  obtain ⟨ev, event, m, sent, carries⟩ :=
    safe.covered d (closed.mem (moves_quiet run) here high) won low high
  have arrived : Applied rt w'.erp m.body → Arrived rt w w' d := fun applied =>
    .inl (storedFrom_of_applied deep event (carries.1 ▸ applied))
  rcases inv.2.body ⟨_, sent⟩ with ⟨q, m', queued, same⟩ | applied
  · cases q with
    | main =>
        rcases drains.handled m' queued with still | applied | ⟨refused, m'', mem, same'⟩
        · rw [empty] at still
          cases still
        · exact arrived (same ▸ applied)
        · have body := same'.trans same
          exact .inr ⟨ev, event, m'', mem, body.trans carries.1, .inl (same'.symm ▸ refused)⟩
    | deadLetters =>
        exact .inr ⟨ev, event, m', drains.parked m' queued, same.trans carries.1, .inr queued⟩
  · exact arrived (drains.applied _ applied)

/-- From any state reached, a poll on services that work has a run and returns no error, and then
the cycles that drain the main queue have a run and bring every deal that is won now, and is stamped
before the end of the poll's window, to the ERP or the DLQ. -/
theorem caught_up (settings : Settings) {w : World} {s : Pool World Component Request.Answer Unit} (deep : 2 ≤ rt.depth)
    (noRows : w.erp = Dynamo.State.empty) (noMessages : w.sqs = Sqs.State.empty)
    (start : p.watermark.stored w = some initial)
    (reached : Pool.Reaches S.Answers (Outside p) (Syncs rt p) (Pool.idle w) s) {from_ : Int}
    (mark : p.watermark.stored s.world = some from_) (legible : Ingest.Legible from_)
    (year : Ingest.Legible (since - p.lag)) :
    (∃ result w₁, Exec (Timely S settings p.lag since) (Outside p) p.run s.world result w₁) ∧
    ∀ result w₁, Exec (Timely S settings p.lag since) (Outside p) p.run s.world result w₁ →
      result.2 = none ∧
      ∀ n, (w₁.sqs.queue .main).length ≤ n → (∀ m ∈ w₁.sqs.queue .main, Readable rt m.body) →
        (∃ w₂, Exec (Serves S settings) (Quiet p) (cycles rt settings n) w₁ () w₂) ∧
        ∀ w₂, Exec (Serves S settings) (Quiet p) (cycles rt settings n) w₁ () w₂ →
          ∀ d ∈ w₂.org, d.isWon = true → initial ≤ d.stamp →
            d.stamp < truncateSecond (since - p.lag) → Arrived rt w₁ w₂ d := by
  refine ⟨?_, fun result w₁ polled => ?_⟩
  · obtain ⟨calls, result, w₁, run⟩ : ∃ calls result w₁,
        Traced (Timely S settings p.lag since) (Outside p) p.run s.world calls result w₁ :=
      Traced.exists_run (exists_timely year) p.run s.world
    exact ⟨result, w₁, run.exec⟩
  · obtain ⟨fine, t, stored, horizon⟩ := poll_ends mark legible polled
    refine ⟨fine, fun n enough readable => ⟨?_, fun w₂ worked d here won low high => ?_⟩⟩
    · obtain ⟨value, w₂, run⟩ := exists_run_of_serves S settings (Quiet p) (cycles rt settings n) w₁
      exact ⟨w₂, run⟩
    · -- The poll is one more run of the poller.
      obtain ⟨calls, traced⟩ := polled.traced
      have polls : Exec S.Answers (Outside p) (p.run >>= fun _ => pure ()) s.world () w₁ :=
        (traced.mono fun _ _ _ _ timely => timely.1.1).exec.bind .ret
      have more := Pool.reaches_exec (@Syncs.poll rt p) polls s.running s.finished
      have inv := pipeline_reaches (pipeline_start noRows noMessages start) (reached.trans more)
      exact arrived_of_drain deep inv stored readable enough worked here won low
        (high.trans_le horizon)

end CatchUp

/-! ### A deal that is made, polled and drained -/

/-- A poll that does not fail, with this reading of the clock, is one on services that work. -/
theorem admits_timely (S : Services) (settings : Settings) {lag now : Int} (year : Ingest.Legible (now - lag)) :
    Ingest.Admits S now (Timely S settings lag now) := by
  intro request w reply w' answered smooth
  cases request with
  | getParameter => exact ⟨⟨answered, smooth⟩, trivial⟩
  | serverTime => exact ⟨⟨answered, now, smooth⟩, now, smooth, le_rfl, year⟩
  | queryAll => exact ⟨⟨answered, fun _ _ => smooth⟩, trivial⟩
  | sendMessageBatch => exact ⟨⟨answered, smooth⟩, trivial⟩
  | putParameter => exact ⟨⟨answered, smooth⟩, trivial⟩
  | timeNow => exact ⟨⟨answered, trivial⟩, trivial⟩
  | _ => exact smooth.elim

/-- With nothing beside it, a program leaves the deals as they are. -/
theorem org_of_alone {S : Services} {settings : Settings} {α : Type} {program : Act α} {w w' : World} {value : α}
    (run : Exec (Serves S settings) (fun _ _ => False) program w value w') : w'.org = w.org := by
  obtain ⟨calls, run⟩ := run.traced
  exact Traced.along (fun u v : World => v.org = u.org) (fun _ => rfl) (fun first second => second.trans first)
    (fun _ _ never => never.elim) (fun _ _ _ _ _ served => org_of_answers served.1) (Calls.any program) run

/-- A deal that is made after the start is polled, and one cycle writes its order. -/
theorem caught_up_renewal : ∃ result w₁ w₂,
    Exec (Timely ⟨fun _ => 0⟩ standard 0 10000000000) (Outside Ingest.earlyPoller)
      Ingest.earlyPoller.run { World.empty with org := [renewalFor 5000] } result w₁ ∧ result.2 = none ∧
    (w₁.sqs.queue .main).length = 1 ∧
    Exec (Serves ⟨fun _ => 0⟩ standard) (Quiet Ingest.earlyPoller) (cycles ⟨fun _ => true, 1000⟩ standard 1)
      w₁ () w₂ ∧
    renewalFor 5000 ∈ w₂.org ∧ StoredFrom w₂.erp (renewalFor 5000).id (renewalFor 5000).systemModstamp := by
  let S : Services := ⟨fun _ => 0⟩
  let rt : Runtime := ⟨fun _ => true, 1000⟩
  let w : World := { World.empty with org := [renewalFor 5000] }
  -- No clock was read before, so the deal may have any stamp.
  have made : Outside Ingest.earlyPoller World.empty w :=
    .elsewhere rfl rfl ⟨List.Subset.refl _, List.Subset.refl _, fun _ _ => .inr fun _ read => nomatch read⟩ rfl
  have reached : Pool.Reaches S.Answers (Outside Ingest.earlyPoller) (Syncs rt Ingest.earlyPoller)
      (Pool.idle World.empty) (Pool.idle w) := .single (.environment made)
  obtain ⟨result, w₁, ev, m, polled, org, -, -, -, sent, event, body⟩ :=
    @Ingest.oneDeal_exec S _ (admits_timely S standard (show Ingest.Legible (10000000000 - 0) by decide))
      (Outside Ingest.earlyPoller) (renewalFor 5000) rfl rfl
  obtain ⟨order, read, -⟩ := orderOf_renewalFor event
  have only : w₁.sqs.queue .main = [m] := by
    rw [sent]
    exact push_queue_self _ _ _
  have readable : ∀ m' ∈ w₁.sqs.queue .main, Readable rt m'.body := by
    intro m' mem
    rw [only] at mem
    rw [List.mem_singleton.mp mem, body]
    exact (permanent_orderOf_iff _ _).mp (read ▸ permanent_ok order)
  obtain ⟨value, w₂, alone⟩ := exists_run_of_serves S standard (fun _ _ => False) (cycles rt standard 1) w₁
  have drained : Exec (Serves S standard) (Quiet Ingest.earlyPoller) (cycles rt standard 1) w₁ () w₂ :=
    alone.weaken fun _ _ never => never.elim
  have here : renewalFor 5000 ∈ w₂.org := by
    rw [org_of_alone alone, org]
    exact List.mem_singleton_self _
  have caught := @caught_up S rt Ingest.earlyPoller 0 10000000000 standard World.empty (Pool.idle w) (by decide)
    rfl rfl rfl reached 0 rfl (by decide) (by decide)
  obtain ⟨fine, drains⟩ := caught.2 _ _ polled
  refine ⟨_, w₁, w₂, polled, fine, by rw [only]; rfl, drained, here, ?_⟩
  rcases (drains 1 (by rw [only]; rfl) readable).2 w₂ drained _ here rfl (by decide) (by decide) with
    stored | ⟨ev', event', m', -, body', refused | before⟩
  · exact stored
  · -- The deal's event maps to an order.
    obtain ⟨order', read', -⟩ := orderOf_renewalFor event'
    obtain ⟨exc, failed⟩ := refused
    rw [body', read'] at failed
    cases failed
  · rw [sent] at before
    cases before

end Relay.Delivery
