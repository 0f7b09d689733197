import Relay.Worker.Script
import Relay.Worker.Unmappable

/-!
The partial batch response is exact, and the records of a batch are isolated.
-/

namespace Relay.Worker

open Relay.Effect Relay.Platform Relay.Python Relay.Erp Relation

variable {S : Services} {rt : Runtime} {settings : Settings} {chaos : Chaos} {script : Script}

/-- A run under a script is a run of the services. -/
theorem scripted_run {α : Type} {program : Act α} {s t : Scene} {calls : List (Exchange Request.Answer)}
    {value : α} (run : Traced (script.Answers S) Alone program s calls value t) :
    Traced S.Answers Others program s.world calls value t.world := by
  induction run with
  | ret => exact .ret
  | call moves answered _ ih =>
      obtain rfl := eq_of_alone moves
      exact .call .refl answered.1 ih

/-- Whenever the handler returns, its response lists ids of the batch, each once, and leaves out
exactly those of the records whose parts are done. And replacing one body changes neither whether
another record that is started in time is listed, nor the orders and invoices of deals that the
two bodies do not concern. -/
theorem partial_response (S : Services) (rt : Runtime) (settings : Settings) :
    (∀ (records : List Record) (w w' : World) (calls : List (Exchange Request.Answer)) (ids : List String),
      (records.map Record.messageId).Nodup → Versioned w.erp.db →
      Traced S.Answers Others (handler rt settings records) w calls (.ok ids) w' →
      (∀ id ∈ ids, id ∈ records.map Record.messageId) ∧ ids.Nodup ∧
        ∃ chaos loads w₁ parts left handled, calls = loads ++ handled ∧
          Traced S.Answers Others (Chaos.load settings.paramPrefix) w loads (.ok chaos) w₁ ∧
          Divides S.Answers Others rt settings chaos 0 w₁ records parts left handled w' ∧
          ∀ record ∈ records,
            record.messageId ∉ ids ↔ ∃ part ∈ parts, part.record = record ∧ part.Done rt) ∧
    ∀ (records : List Record) (j : Nat) (record : Record) (body : String) (script script' : Script)
      (w : World) (t t' : Scene) (calls calls' : List (Exchange Request.Answer)) (ids ids' : List String),
      records[j]? = some record → (records.map Record.messageId).Nodup →
      script'.parameters = script.parameters →
      (∀ i, i ≠ j → SameFate (script.fates i) (script'.fates i)) →
      Traced (script.Answers S) Alone (handler rt settings records) (script.start w) calls (.ok ids) t →
      Traced (script'.Answers S) Alone (handler rt settings (records.set j { record with body := body }))
        (script'.start w) calls' (.ok ids') t' →
      (∀ (i : Nat) (other : Record), i ≠ j → records[i]? = some other → InTime settings script i →
        InTime settings script' i →
        (∀ deal, Concerns rt other.body deal → ¬ Concerns rt record.body deal ∧ ¬ Concerns rt body deal) →
          (other.messageId ∈ ids ↔ other.messageId ∈ ids')) ∧
      ∀ deal, ¬ Concerns rt record.body deal → ¬ Concerns rt body deal →
        (∀ (i : Nat) (other : Record), i ≠ j → records[i]? = some other → Concerns rt other.body deal →
          (InTime settings script i ↔ InTime settings script' i)) →
        rows t'.world.erp.db deal = rows t.world.erp.db deal := by
  constructor
  · intro records w w' calls ids distinct versioned run
    exact response_exact distinct versioned run
  · intro records j record body script script' w t t' calls calls' ids ids' here distinct parameters fates
      run run'
    exact records_isolated here distinct parameters fates run run'

/-! ### A record that is written and one that fails -/

/-- The DLQ takes no messages. -/
def refusing : Script where
  parameters := .error "no parameters"
  fates := fun _ => ⟨none, fun _ => 0, fun _ => 0, none, true, none, .error "AccessDenied", .ok ()⟩

theorem told_refusing {s : Scene} (fate : s.fate = refusing.fates 0) :
    refusing.Answers S .utcNow s (0 : Int) { s with told := s.told + 1 } :=
  ⟨rfl, by rw [fate]; rfl, rfl⟩

/-- A record that can only be parked is reported when that fails. -/
theorem refused_run {record : Record} {reason detail : String}
    (refused : orderOf rt record.body = .error (.permanentError reason detail)) {s : Scene}
    (fate : s.fate = refusing.fates 0) :
    ∃ calls, Traced (refusing.Answers S) Alone (handleRecord rt settings record chaos) s calls
      (.ok .dlqSendFailed) { s with told := s.told + 1 } := by
  have sent : ∀ attributes, refusing.Answers S (.sendMessage .deadLetters record.body attributes)
      { s with told := s.told + 1 } (.error "AccessDenied") { s with told := s.told + 1 } := by
    intro attributes
    refine ⟨⟨s.world.sqs, ⟨.inl rfl, ?_⟩, rfl⟩, by rw [fate]; rfl, rfl⟩
    rintro ⟨⟩
  rw [handleRecord, process_of_error chaos refused, Prog.pure_bind_eq]
  exact ⟨_, .call .refl (told_refusing fate) (.call .refl (sent _) .ret)⟩

/-- A record whose write can be committed is written. -/
theorem written_run {record : Record} {order : Order} (mapped : orderOf rt record.body = .ok order)
    {s : Scene} (fate : s.fate = refusing.fates 0) {db : Dynamo.Db Table}
    (commits : s.world.erp.db.transact (transaction order (isoformat 0)) = some db) :
    ∃ calls, Traced (refusing.Answers S) Alone (handleRecord rt settings record .off) s calls
      (.ok (.result .written))
      { s with
        world := { s.world with erp := ⟨db, s.world.erp.log ++ [transaction order (isoformat 0)]⟩ },
        told := s.told + 1 } := by
  let erp : Dynamo.State Table := ⟨db, s.world.erp.log ++ [transaction order (isoformat 0)]⟩
  have wrote : refusing.Answers S (.transactWriteItems (transaction order (isoformat 0)))
      { s with told := s.told + 1 } (.ok ())
      { s with world := { s.world with erp := erp }, told := s.told + 1 } := by
    have committed : Dynamo.Committed (transaction order (isoformat 0)) s.world.erp erp := ⟨commits, rfl⟩
    refine ⟨⟨erp, ⟨.inr committed, committed⟩, rfl⟩, ?_, rfl⟩
    simp only [Fate.writes, fate, refusing, commits, attempt, erp]
  unfold handleRecord process
  rw [mapped]
  exact ⟨_, .call .refl (told_refusing fate) (.call .refl wrote .ret)⟩

/-- A record with this body. -/
def bare (messageId body : String) : Record := ⟨messageId, ⟨messageId, 1⟩, body, some 1, [], .main⟩

def renewalBody : String :=
  "\x7b\"schema\":\"relay.opportunity.v1\",\"event_key\":\"006A:1\",\"version\":1,\"opportunity\":\x7b" ++
    "\"id\":\"006A\",\"account_id\":\"001A\",\"account_name\":\"Acme\",\"amount\":5000," ++
    "\"close_date\":\"2026-09-14\",\"system_modstamp\":\"t\"\x7d\x7d"

def renewalOrder : Order :=
  ⟨"006A", "001A", "Acme", "", ⟨false, 5000, 0⟩, "2026-09-14", 1, "t", "006A:1"⟩

set_option maxRecDepth 20000 in
theorem orderOf_renewal (printable : Char → Bool) :
    orderOf ⟨printable, 1000⟩ renewalBody = .ok renewalOrder := by
  with_unfolding_all rfl

/-- A batch of a record that can be written and of one that is refused. -/
theorem mixed_batch {record other : Record} {order : Order} (mapped : orderOf rt record.body = .ok order)
    {reason detail : String} (refused : orderOf rt other.body = .error (.permanentError reason detail))
    {db : Dynamo.Db Table}
    (commits : World.empty.erp.db.transact (transaction order (isoformat 0)) = some db) :
    ∃ calls t, Traced (refusing.Answers S) Alone (handler rt settings [record, other])
        (refusing.start .empty) calls (.ok [other.messageId]) t ∧
      t.world.erp = ⟨db, [transaction order (isoformat 0)]⟩ := by
  have params : ∀ names, refusing.Answers S (.getParameters names) (refusing.start .empty)
      (.error "no parameters") (refusing.start .empty) := fun _ => ⟨rfl, rfl, rfl⟩
  have asked : ∀ s : Scene, refusing.Answers S .remainingTime s (none : Option Int)
      ⟨s.world, s.begun + 1, refusing.fates 0, 0, 0⟩ := fun _ => ⟨rfl, rfl, rfl⟩
  obtain ⟨first, written⟩ := @written_run S rt settings record order mapped
    ⟨.empty, 1, refusing.fates 0, 0, 0⟩ rfl db commits
  let w : World := { World.empty with erp := ⟨db, [transaction order (isoformat 0)]⟩ }
  obtain ⟨second, failed⟩ := @refused_run S rt settings .off other reason detail refused
    ⟨w, 2, refusing.fates 0, 0, 0⟩ rfl
  exact ⟨_, _, .call .refl (params _) (.call .refl (asked _)
    (written.bind (.call .refl (asked _) (failed.bind .ret)))), rfl⟩

/-- The renewal is written and its part is done, whichever body the record that fails has. -/
theorem partial_response_mixed :
    ∃ (parts : List (Part World)) (calls calls' : List (Exchange Request.Answer)) (t t' : Scene),
      Traced (refusing.Answers ⟨fun _ => 0⟩) Alone
        (handler ⟨fun _ => true, 1000⟩ standard [bare "m1" renewalBody, bare "m2" "x"])
        (refusing.start .empty) calls (.ok ["m2"]) t ∧
      Traced (refusing.Answers ⟨fun _ => 0⟩) Alone
        (handler ⟨fun _ => true, 1000⟩ standard [bare "m1" renewalBody, bare "m2" ""])
        (refusing.start .empty) calls' (.ok ["m2"]) t' ∧
      t.world.erp.log = [transaction renewalOrder "1970-01-01T00:00:00+00:00"] ∧
      (∃ part ∈ parts, part.record = bare "m1" renewalBody ∧ part.Done ⟨fun _ => true, 1000⟩) ∧
      (¬ ∃ part ∈ parts, part.record = bare "m2" "x" ∧ part.Done ⟨fun _ => true, 1000⟩) ∧
      ∀ deal, rows t'.world.erp.db deal = rows t.world.erp.db deal := by
  have versioned : Versioned World.empty.erp.db := by
    rintro orderId item ⟨⟩
  obtain ⟨db, commits⟩ := Option.isSome_iff_exists.mp <|
    (transact_isSome_of_kept kept_empty renewalOrder (isoformat 0)).mpr rfl
  obtain ⟨calls, t, run, erp⟩ := @mixed_batch ⟨fun _ => 0⟩ ⟨fun _ => true, 1000⟩ standard
    (bare "m1" renewalBody) (bare "m2" "x") _ (orderOf_renewal _) _ _ (orderOf_letter _) _ commits
  obtain ⟨calls', t', run', -⟩ := @mixed_batch ⟨fun _ => 0⟩ ⟨fun _ => true, 1000⟩ standard
    (bare "m1" renewalBody) (bare "m2" "") _ (orderOf_renewal _) _ _ (orderOf_empty _) _ commits
  obtain ⟨exact_, isolated⟩ := partial_response ⟨fun _ => 0⟩ ⟨fun _ => true, 1000⟩ standard
  have nowhere : ∀ deal, ¬ Concerns ⟨fun _ => true, 1000⟩ "" deal := by
    rintro deal ⟨order, mapped, -⟩
    cases (orderOf_empty fun _ => true).symm.trans mapped
  have nowhere' : ∀ deal, ¬ Concerns ⟨fun _ => true, 1000⟩ "x" deal := by
    rintro deal ⟨order, mapped, -⟩
    cases (orderOf_letter fun _ => true).symm.trans mapped
  obtain ⟨-, -, chaos, loads, w₁, parts, left, handled, -, -, -, done⟩ :=
    exact_ _ _ _ _ _ (by decide) versioned (scripted_run run)
  obtain ⟨-, same⟩ := isolated [bare "m1" renewalBody, bare "m2" "x"] 1 (bare "m2" "x") "" refusing
    refusing .empty t t' calls calls' _ _ rfl (by decide) rfl (fun i _ => ⟨none, rfl⟩) run run'
  refine ⟨parts, calls, calls', t, t', run, run', ?_, ?_, ?_, ?_⟩
  · rw [erp]
    rfl
  · exact (done (bare "m1" renewalBody) (by simp)).mp (by simp [bare])
  · rw [← done (bare "m2" "x") (by simp)]
    simp [bare]
  · intro deal
    exact same deal (nowhere' deal) (nowhere deal) fun _ _ _ _ _ => Iff.rfl

end Relay.Worker
