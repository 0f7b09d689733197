import Relay.Effect.Pool
import Relay.Ingest.Sends

/-!
Runs whose calls are answered.

Where the watermark and the end of the window are read back from their texts, a run
gets to the rows of its window (`run_exec`). A window of a few deals fits into one
batch: it is accepted and the watermark moves to the window's end, or all but one of
its entries are and the watermark moves to the stamp of that deal.
-/

namespace Relay.Ingest

open Relay.Json Relay.Effect Relay.Platform Relay.Salesforce Relay.Events Relay.Sqs
  Relay.Data Relation

/-- The stored watermark as a run reads it. -/
def SSMWatermark.stored (mark : SSMWatermark) (w : World) : Option Int :=
  match w.parameters mark.name with
  | none => some mark.start
  | some value => parseDateTime value

/-- A call of a run that does not fail; the clock reads `now`. -/
def Smooth (now : Int) : (request : Request) → request.Answer → Prop
  | .getParameter _, reply => ∀ message, reply ≠ .error (.other message)
  | .serverTime, reply => reply = .ok now
  | .queryAll _, reply => ∃ rows, reply = .ok rows
  | .sendMessageBatch _ _, reply => ∃ out, reply = .ok out ∧ out.failed = []
  | .putParameter _ _, reply => reply = .ok ()
  | .timeNow, _ => True
  | _, _ => False

/-- The services may answer the calls of a run without a failure. -/
def Admits (S : Services) (now : Int)
    (answers : (request : Request) → World → request.Answer → World → Prop) : Prop :=
  ∀ request w reply w', S.Answers request w reply w' → Smooth now request reply → answers request w reply w'

theorem admits_answers (S : Services) (now : Int) : Admits S now S.Answers :=
  fun _ _ _ _ answered _ => answered

section Served

variable {S : Services} {answers : (request : Request) → World → request.Answer → World → Prop}
  {env : World → World → Prop} {p : Poller} {w w₁ : World} {from_ upper now : Int}

/-- A stamp that is read back from its text. -/
def Legible (t : Int) : Prop := FourDigits (.ofSeconds (t / nanosPerSecond))

instance (t : Int) : Decidable (Legible t) := inferInstanceAs (Decidable (FourDigits _))

theorem parseDateTime_literal_of_legible {t : Int} (legible : Legible t) :
    parseDateTime (literal t) = some (truncateSecond t) := by
  rw [parseDateTime_literal]
  exact if_pos legible

theorem get_exec (admits : Admits S now answers) (stored : p.watermark.stored w = some from_) :
    Exec answers env p.watermark.get w (.ok from_) w := by
  unfold SSMWatermark.stored at stored
  cases here : w.parameters p.watermark.name with
  | none =>
      rw [here] at stored
      obtain rfl := Option.some.inj stored
      have answered : S.Answers (.getParameter p.watermark.name) w (.error .notFound) w := ⟨rfl, here⟩
      exact .call .refl (admits _ _ _ _ answered (by simp [Smooth])) .ret
  | some value =>
      rw [here] at stored
      have answered : S.Answers (.getParameter p.watermark.name) w (.ok value) w := ⟨rfl, here⟩
      have parsed : parseDateTime value = some from_ := stored
      have read : readDateTime value = .ok from_ := by rw [readDateTime, parsed]
      rw [← read]
      exact .call .refl (admits _ _ _ _ answered (by simp [Smooth])) .ret

theorem exists_unmarshalAll (deals : List Deal) :
    ∃ rows, unmarshalAll (deals.map fun d => d.row.json) = .ok rows ∧
      List.Forall₂ (fun d o => Salesforce.Opportunity.unmarshal d.row.json = .ok o) deals rows := by
  induction deals with
  | nil => exact ⟨[], rfl, .nil⟩
  | cons d rest ih =>
      obtain ⟨rows, decoded, each⟩ := ih
      refine ⟨_ :: rows, ?_, .cons (unmarshal_row d.row) each⟩
      rw [List.map_cons, unmarshalAll, unmarshal_row, decoded]
      rfl

theorem queryAll_exec (admits : Admits S now answers) (low : Legible from_) (high : Legible upper)
    (whole : truncateSecond upper = upper) :
    ∃ rows, Exec answers env (queryAll (query from_ upper)) w (.ok rows)
        { w with reads := w.reads ++ [(query from_ upper, w.org)] } ∧
      List.Forall₂ (fun d o => Salesforce.Opportunity.unmarshal d.row.json = .ok o)
        (selected (inWindow (truncateSecond from_) upper) w.org) rows := by
  obtain ⟨rows, decoded, each⟩ := exists_unmarshalAll (selected (inWindow (truncateSecond from_) upper) w.org)
  have selects : (query from_ upper).Selects w.org
      ((selected (inWindow (truncateSecond from_) upper) w.org).map fun d => d.row.json) := by
    refine ⟨_, upper, parseDateTime_literal_of_legible low, ?_, rfl⟩
    rw [parseDateTime_literal_of_legible high, whole]
  have answered : S.Answers (.queryAll (query from_ upper)) w (.ok _)
      { w with reads := w.reads ++ [(query from_ upper, w.org)] } := ⟨selects, rfl⟩
  refine ⟨rows, ?_, each⟩
  rw [← decoded]
  exact .call .refl (admits _ _ _ _ answered ⟨_, rfl⟩) .ret

/-- Rows of legible deals all become events. -/
theorem buildEvents_exec (admits : Admits S now answers) {deals : List Deal}
    {rows : List (Salesforce.Opportunity Token)}
    (legible : ∀ d ∈ deals, Legible d.stamp)
    (decoded : List.Forall₂ (fun d o => Salesforce.Opportunity.unmarshal d.row.json = .ok o) deals rows) :
    ∃ evs, Exec answers env (buildEvents rows) w (.ok evs) w ∧ List.Forall₂ IsEventOf deals evs := by
  induction decoded with
  | nil => exact ⟨[], .ret, .nil⟩
  | @cons d o deals rows first _ ih =>
      obtain ⟨evs, built, events⟩ := ih fun d mem => legible d (List.mem_cons_of_mem _ mem)
      obtain ⟨ev, event⟩ : ∃ ev, fromOpportunity o 0 = some ev := by
        have stamp : (1000000 * d.systemModstamp) / 1000000000 = d.systemModstamp / 1000 := by omega
        have own := legible d List.mem_cons_self
        rw [Legible, Deal.stamp, nanosPerSecond, stamp] at own
        have read := first
        rw [unmarshal_row] at read
        cases read
        rw [fromOpportunity, Deal.row, parseDateTime_wireText, if_pos own]
        exact ⟨_, rfl⟩
      have told : S.Answers .timeNow w (0 : Int) w := rfl
      refine ⟨ev :: evs, .call .refl (admits _ _ _ _ told trivial) ?_, .cons ⟨o, 0, first, event⟩ events⟩
      simp only [Prog.bind, event]
      exact built.bind .ret

/-- One batch of events that is accepted. -/
theorem publish_exec (admits : Admits S now answers) {evs : List Event} (few : evs.length ≤ 10)
    (some_ : evs ≠ []) : ∃ sqs, Exec answers env (publish evs) w (evs.length, none) { w with sqs := sqs } ∧
      SentAll .main (evs.mapIdx entry) w.sqs sqs := by
  obtain ⟨sqs, sent⟩ := exists_sentAll Queue.main (evs.mapIdx entry) w.sqs
  have answered : S.Answers (.sendMessageBatch .main (evs.mapIdx entry)) w
      (.ok ⟨(evs.mapIdx entry).map Entry.id, []⟩) { w with sqs := sqs } := by
    refine ⟨sqs, ⟨evs.mapIdx entry, List.Sublist.refl _, sent, ?_⟩, rfl⟩
    rintro out ⟨⟩
    refine ⟨(List.filter_eq_self.mpr fun e _ => ?_).symm, rfl⟩
    simp [BatchReply.accepts]
  refine ⟨sqs, ?_, sent⟩
  have one : batches 10 evs = [evs] := by
    rw [batches_of_ne_nil (by omega) some_, List.take_of_length_le few, List.drop_of_length_le few]
    rfl
  rw [publish, one]
  exact .call .refl (admits _ _ _ _ answered ⟨_, rfl, rfl⟩) .ret

/-- One batch of which the event at `k`, and no other, is not accepted. -/
theorem publish_exec_until {evs : List Event} (few : evs.length ≤ 10) {k : Nat} (inside : k < evs.length) :
    ∃ sqs err, Exec S.Answers env (publish evs) w (k, some err) { w with sqs := sqs } := by
  let failure : BatchFailure := ⟨toString k, "InternalError", "try again"⟩
  let out (stored : List Entry) : BatchReply := ⟨stored.map Entry.id, [failure]⟩
  obtain ⟨sqs, sent⟩ := exists_sentAll Queue.main ((evs.mapIdx entry).filter (out []).accepts) w.sqs
  have answered : S.Answers (.sendMessageBatch .main (evs.mapIdx entry)) w
      (.ok (out ((evs.mapIdx entry).filter (out []).accepts))) { w with sqs := sqs } := by
    refine ⟨sqs, ⟨_, List.filter_sublist, sent, ?_⟩, rfl⟩
    rintro _ ⟨⟩
    exact ⟨rfl, rfl⟩
  have first : firstFailed evs.length failure [failure] = .ok ((k : Int), failure) := by
    have index : atoi failure.id = some (k : Int) := atoi_toString (by omega)
    rw [firstFailed, index]
    have less : (k : Int) < evs.length := by omega
    simp only [if_pos less, firstFailed]
  have one : batches 10 evs = [evs] := by
    rw [batches_of_ne_nil (by omega) (List.ne_nil_of_length_pos (by omega)), List.take_of_length_le few,
      List.drop_of_length_le few]
    rfl
  refine ⟨sqs, .entryFailed k failure, ?_⟩
  rw [publish, one]
  refine .call .refl answered ?_
  simp only [Prog.bind, out, first, Nat.cast_zero, zero_add]
  exact .ret

/-- The world in which a run has its rows: the clock was read and the window queried. -/
def queried (from_ upper now : Int) (w : World) : World :=
  { w with serverTimes := w.serverTimes ++ [now], reads := w.reads ++ [(query from_ upper, w.org)] }

/-- The world after a publish, with the watermark written. -/
def marked (p : Poller) (mark : Int) (sqs : Sqs.State Queue) (w : World) : World :=
  { w with sqs := sqs, parameters := Function.update w.parameters p.watermark.name (some (literal mark)) }

/-- A run gets to the rows of its window; others may move between its first two calls. -/
theorem run_exec (admits : Admits S now answers) (stored : p.watermark.stored w = some from_)
    (moves : ReflTransGen env w w₁) (ends : truncateSecond (now - p.lag) = upper) (opens : from_ < upper)
    (low : Legible from_) (high : Legible upper) :
    ∃ rows, List.Forall₂ (fun d o => Salesforce.Opportunity.unmarshal d.row.json = .ok o)
        (selected (inWindow (truncateSecond from_) upper) w₁.org) rows ∧
      ∀ result w₂, Exec answers env (p.publishRows from_ upper rows) (queried from_ upper now w₁) result w₂ →
        Exec answers env p.run w result w₂ := by
  have whole : truncateSecond upper = upper := by
    rw [← ends, truncateSecond, truncateSecond, nanosPerSecond]
    omega
  obtain ⟨rows, asked, decoded⟩ :=
    @queryAll_exec S answers env { w₁ with serverTimes := w₁.serverTimes ++ [now] } from_ upper now admits low
      high whole
  refine ⟨rows, decoded, fun result w₂ published => ?_⟩
  have served : S.Answers .serverTime w₁ (.ok now) { w₁ with serverTimes := w₁.serverTimes ++ [now] } := rfl
  refine (get_exec admits stored).bind (.call moves (admits _ _ _ _ served rfl) ?_)
  simp only [Prog.bind, ends, if_neg (not_le.mpr opens)]
  exact asked.bind published

/-- A window of a few legible deals that are all accepted: the watermark moves to its end. -/
theorem publishRows_exec (admits : Admits S now answers) {deals : List Deal}
    {rows : List (Salesforce.Opportunity Token)}
    (decoded : List.Forall₂ (fun d o => Salesforce.Opportunity.unmarshal d.row.json = .ok o) deals rows)
    (legible : ∀ d ∈ deals, Legible d.stamp) (few : deals.length ≤ 10) (some_ : deals ≠ []) :
    ∃ result evs sqs, List.Forall₂ IsEventOf deals evs ∧ SentAll .main (evs.mapIdx entry) w.sqs sqs ∧
      Exec answers env (p.publishRows from_ upper rows) w (result, none) (marked p upper sqs w) := by
  obtain ⟨evs, built, events⟩ := @buildEvents_exec S answers env w now admits deals rows legible decoded
  have some' : evs ≠ [] := by
    rintro rfl
    cases events
    exact some_ rfl
  obtain ⟨sqs, published, sent⟩ := @publish_exec S answers env w now admits evs (events.length_eq ▸ few) some'
  have put : S.Answers (.putParameter p.watermark.name (literal upper)) { w with sqs := sqs } (.ok ())
      (marked p upper sqs w) := ⟨.inr rfl, fun _ => rfl⟩
  have set_ : Exec answers env (p.watermark.set upper) { w with sqs := sqs } (.ok ())
      (marked p upper sqs w) := .call .refl (admits _ _ _ _ put rfl) .ret
  let keys := (evs.take evs.length).map OpportunityEvent.eventKey
  refine ⟨⟨from_, upper, evs.length, evs.length, keys⟩, evs, sqs, events, sent,
    built.bind (published.bind ?_)⟩
  dsimp only
  rw [if_pos ⟨by omega, le_rfl⟩, Poller.finish]
  exact set_.bind .ret

/-- A window whose publish stops at `k`, after the start: the watermark moves to the stamp of the
first deal that was not sent. -/
theorem publishRows_exec_until {deals : List Deal} {rows : List (Salesforce.Opportunity Token)}
    (decoded : List.Forall₂ (fun d o => Salesforce.Opportunity.unmarshal d.row.json = .ok o) deals rows)
    (legible : ∀ d ∈ deals, Legible d.stamp) (few : deals.length ≤ 10) {k : Nat} {d : Deal}
    (here : deals[k]? = some d) (positive : 0 < k) (later : from_ < d.stamp) :
    ∃ result err sqs, Exec S.Answers env (p.publishRows from_ upper rows) w
      (result, some (.publish k deals.length err)) (marked p d.stamp sqs w) := by
  obtain ⟨evs, built, events⟩ := @buildEvents_exec S S.Answers env w 0 (admits_answers S 0) deals rows legible
    decoded
  obtain ⟨ev, at_, event⟩ := getElem?_of_forall₂ events.flip here
  have event : IsEventOf d ev := event
  have inside : k < evs.length := (List.getElem?_eq_some_iff.mp at_).1
  obtain ⟨sqs, err, published⟩ := @publish_exec_until S env w evs (events.length_eq ▸ few) k inside
  have put : S.Answers (.putParameter p.watermark.name (literal d.stamp)) { w with sqs := sqs } (.ok ())
      (marked p d.stamp sqs w) := ⟨.inr rfl, fun _ => rfl⟩
  have set_ : Exec S.Answers env (p.watermark.set d.stamp) { w with sqs := sqs } (.ok ())
      (marked p d.stamp sqs w) := .call .refl put .ret
  have resumes : resumeAt from_ k evs = some d.stamp := by
    rw [resumeAt, at_]
    simp only [event.modstamp, if_pos (And.intro positive later)]
  refine ⟨⟨from_, d.stamp, evs.length, k, (evs.take k).map OpportunityEvent.eventKey⟩, err, sqs,
    built.bind (published.bind ?_)⟩
  dsimp only
  rw [if_pos ⟨by omega, by omega⟩, Poller.finish, Int.toNat_natCast]
  simp only [resumes, events.length_eq]
  exact set_.bind .ret

/-- What is stored after a write of the watermark is its second. -/
theorem stored_marked (legible : Legible upper) (sqs : Sqs.State Queue) :
    p.watermark.stored (marked p upper sqs w) = some (truncateSecond upper) := by
  rw [SSMWatermark.stored]
  simpa [marked] using parseDateTime_literal_of_legible legible

/-- A run that publishes its window. -/
theorem run_exec_published (admits : Admits S now answers) (stored : p.watermark.stored w = some from_)
    (moves : ReflTransGen env w w₁) (ends : truncateSecond (now - p.lag) = upper) (opens : from_ < upper)
    (low : Legible from_) (high : Legible upper)
    {deals : List Deal} (rows : selected (inWindow (truncateSecond from_) upper) w₁.org = deals)
    (legible : ∀ d ∈ deals, Legible d.stamp) (few : deals.length ≤ 10) (some_ : deals ≠ []) :
    ∃ result evs sqs, List.Forall₂ IsEventOf deals evs ∧ SentAll .main (evs.mapIdx entry) w₁.sqs sqs ∧
      Exec answers env p.run w (result, none) (marked p upper sqs (queried from_ upper now w₁)) := by
  obtain ⟨rows', decoded, runs⟩ := run_exec admits stored moves ends opens low high
  rw [rows] at decoded
  obtain ⟨result, evs, sqs, events, sent, published⟩ := @publishRows_exec S answers env p
    (queried from_ upper now w₁) from_ upper now admits deals rows' decoded legible few some_
  exact ⟨result, evs, sqs, events, sent, runs _ _ published⟩

/-- A run whose publish stops at `k`. -/
theorem run_exec_stopped (stored : p.watermark.stored w = some from_) (moves : ReflTransGen env w w₁)
    (ends : truncateSecond (now - p.lag) = upper) (opens : from_ < upper) (low : Legible from_)
    (high : Legible upper)
    {deals : List Deal} (rows : selected (inWindow (truncateSecond from_) upper) w₁.org = deals)
    (legible : ∀ d ∈ deals, Legible d.stamp) (few : deals.length ≤ 10) {k : Nat} {d : Deal}
    (here : deals[k]? = some d) (positive : 0 < k) (later : from_ < d.stamp) :
    ∃ result err sqs, Exec S.Answers env p.run w (result, some (.publish k deals.length err))
      (marked p d.stamp sqs (queried from_ upper now w₁)) := by
  obtain ⟨rows', decoded, runs⟩ := run_exec (admits_answers S now) stored moves ends opens low high
  rw [rows] at decoded
  obtain ⟨result, err, sqs, published⟩ := @publishRows_exec_until S env p (queried from_ upper now w₁)
    from_ upper deals rows' decoded legible few k d here positive later
  exact ⟨result, err, sqs, runs _ _ published⟩

end Served

end Relay.Ingest
