import Relay.Delivery.Origins
import Relay.Events.Depicts
import Relay.Worker.Parts

/-!
Where the orders of the ERP come from.

A message is vouched for when the order that the worker makes of it, if any, depicts
a deal that some query gave. The poller and the reconciler send only such messages,
the worker and the operator only pass them on, and the worker writes only their
orders. So in every state that these programs reach, interleaved call by call, the
tables hold orders of deals that were seen (`Traceable`).
-/

namespace Relay.Delivery

open Relay.Effect Relay.Platform Relay.Python Relay.Salesforce Relay.Events Relay.Worker Relay.Relayctl
  Relay.Sqs Relay.Erp

/-- The deals whose fields a query asks for. -/
def Asks : Soql → Deal → Prop
  | .won, d => d.isWon = true
  | .wonBetween from_ upper, d => ∃ low high, parseDateTime from_ = some low ∧
      parseDateTime upper = some high ∧ inWindow low high d = true
  | .stages _, _ => False

/-- The deal was in the answer to a query. -/
def Seen (reads : List (Soql × List Deal)) (d : Deal) : Prop :=
  ∃ read ∈ reads, Asks read.1 d ∧ d ∈ read.2

def Sourced (reads : List (Soql × List Deal)) (order : Order) : Prop := ∃ d, Seen reads d ∧ Depicts d order

/-- The order of a body, if it has one, depicts a deal that was seen. -/
def Vouched (rt : Runtime) (reads : List (Soql × List Deal)) (body : String) : Prop :=
  ∀ order, orderOf rt body = .ok order → Sourced reads order

section Later

variable {reads reads' : List (Soql × List Deal)} (more : reads ⊆ reads')
include more

theorem Seen.later {d : Deal} (seen : Seen reads d) : Seen reads' d := by
  obtain ⟨read, mem, asks, here⟩ := seen
  exact ⟨read, more mem, asks, here⟩

theorem Sourced.later {order : Order} (sourced : Sourced reads order) : Sourced reads' order := by
  obtain ⟨d, seen, depicts⟩ := sourced
  exact ⟨d, seen.later more, depicts⟩

theorem Vouched.later {rt : Runtime} {body : String} (vouched : Vouched rt reads body) :
    Vouched rt reads' body :=
  fun order read => (vouched order read).later more

end Later

/-! ### The invariant -/

/-- Versions tell the won deals apart: a deal has the content of every state of it
that a query gave and that has the version which the reconciler gives it now. Their
amounts are exact. -/
structure Steady (org : List Deal) (reads : List (Soql × List Deal)) : Prop where
  content : ∀ d ∈ org, d.isWon = true → ∀ r, Seen reads r → d.id = r.id → ∀ stamp,
    Reconciler.parseModstamp (wireText d.systemModstamp) = .ok stamp →
    HasVersion r (Reconciler.version stamp) → SameContent d r
  exact_ : ∀ d ∈ org, d.isWon = true → ∀ t, d.amount = some t → Exact t

/-- The tables record writes of sourced orders, and every message is vouched for. -/
structure Traceable (rt : Runtime) (w : World) : Prop where
  ledger : ∃ ledger, IsLedger ledger w.erp ∧ ∀ v ∈ ledger, Sourced w.reads v.order
  bodies : ∀ q, ∀ m ∈ w.sqs.queue q, Vouched rt w.reads m.body
  distinct : (w.org.map Deal.id).Nodup
  steady : Steady w.org w.reads

/-- What a request may write or send, after these reads. -/
def Lawful (rt : Runtime) (reads : List (Soql × List Deal)) : Request → Prop
  | .transactWriteItems items => ∃ order now, items = transaction order now ∧ Sourced reads order
  | .sendMessage _ body _ => Vouched rt reads body
  | .sendMessageBatch _ entries => ∀ entry ∈ entries, Vouched rt reads entry.body
  | _ => True

theorem Harmless.lawful (rt : Runtime) (reads : List (Soql × List Deal)) (request : Request)
    (harmless : Harmless request) : Lawful rt reads request := by
  cases request <;> first | exact harmless.elim | trivial

namespace Traceable

variable {rt : Runtime} {w : World}

/-- Changes of the queues keep it if the messages are still vouched for. -/
theorem requeue (inv : Traceable rt w) {sqs : Sqs.State Queue}
    (bodies : ∀ q, ∀ m ∈ sqs.queue q, Vouched rt w.reads m.body) : Traceable rt { w with sqs := sqs } :=
  ⟨inv.ledger, bodies, inv.distinct, inv.steady⟩

theorem fewer (inv : Traceable rt w) {sqs : Sqs.State Queue}
    (sub : ∀ q m, m ∈ sqs.queue q → m ∈ w.sqs.queue q) : Traceable rt { w with sqs := sqs } :=
  inv.requeue fun q m mem => inv.bodies q m (sub q m mem)

theorem sends (inv : Traceable rt w) {q : Queue} {body : String} {attributes : List (String × String)}
    {sqs : Sqs.State Queue} (vouched : Vouched rt w.reads body)
    (sent : sqs = w.sqs ∨ Sent q body attributes w.sqs sqs) : Traceable rt { w with sqs := sqs } := by
  refine inv.requeue fun q' m mem => ?_
  rcases sent with rfl | ⟨m', rfl, -, -, rfl⟩
  · exact inv.bodies q' m mem
  · rcases mem_push.mp mem with before | ⟨-, rfl⟩
    · exact inv.bodies q' m before
    · exact vouched

theorem writes (inv : Traceable rt w) {order : Order} {now : String} {erp : Dynamo.State Table}
    (sourced : Sourced w.reads order) (committed : Dynamo.Committed (transaction order now) w.erp erp) :
    Traceable rt { w with erp := erp } := by
  obtain ⟨ledger, is, from_⟩ := inv.ledger
  have records := is.records.commit (w := ⟨order, now⟩) committed.1
  refine ⟨⟨ledger ++ [⟨order, now⟩], ⟨?_, records⟩, ?_⟩, inv.bodies, inv.distinct, inv.steady⟩
  · rw [committed.2, is.log, List.map_append]
    rfl
  · intro v mem
    rcases List.mem_append.mp mem with mem | mem
    · exact from_ v mem
    · obtain rfl := List.mem_singleton.mp mem
      exact sourced

/-- A query sees every deal as it is. -/
theorem queries (inv : Traceable rt w) (soql : Soql) :
    Traceable rt { w with reads := w.reads ++ [(soql, w.org)] } := by
  have more : w.reads ⊆ w.reads ++ [(soql, w.org)] := List.subset_append_left _ _
  obtain ⟨ledger, is, from_⟩ := inv.ledger
  refine ⟨⟨ledger, is, fun v mem => (from_ v mem).later more⟩,
    fun q m mem => (inv.bodies q m mem).later more, inv.distinct, ?_, inv.steady.exact_⟩
  intro d mem won r seen same stamp parsed version
  obtain ⟨read, here, asks, mem'⟩ := seen
  rcases List.mem_append.mp here with here | here
  · exact inv.steady.content d mem won r ⟨read, here, asks, mem'⟩ same stamp parsed version
  · obtain rfl := List.mem_singleton.mp here
    rw [List.inj_on_of_nodup_map inv.distinct mem mem' same]
    exact SameContent.refl r

/-- A lawful call keeps the invariant. -/
theorem answers {S : Services} (inv : Traceable rt w) {request : Request}
    (lawful : Lawful rt w.reads request) {reply : request.Answer} {w' : World}
    (answered : S.Answers request w reply w') : Traceable rt w' ∧ w.reads ⊆ w'.reads := by
  have same := List.Subset.refl w.reads
  cases request with
  | transactWriteItems items =>
      obtain ⟨order, now, rfl, sourced⟩ := lawful
      obtain ⟨erp, seen, rfl⟩ := answered
      rcases seen.cases with rfl | committed
      · exact ⟨inv, same⟩
      · exact ⟨inv.writes sourced committed, same⟩
  | getItem => obtain ⟨rfl, -⟩ := answered; exact ⟨inv, same⟩
  | scan => obtain ⟨rfl, -⟩ := answered; exact ⟨inv, same⟩
  | receiveMessage =>
      obtain ⟨sqs, ⟨rfl, -⟩, rfl⟩ := answered
      exact ⟨inv, same⟩
  | sendMessage =>
      obtain ⟨sqs, sent, rfl⟩ := answered
      exact ⟨inv.sends lawful sent.1, same⟩
  | sendMessageBatch =>
      obtain ⟨sqs, ⟨stored, sub, sent, -⟩, rfl⟩ := answered
      refine ⟨inv.requeue fun q m mem => ?_, same⟩
      rcases sent.queued mem with before | ⟨entry, here, body, -⟩
      · exact inv.bodies q m before
      · exact body ▸ lawful entry (sub.subset here)
  | deleteMessage =>
      obtain ⟨sqs, deleted, rfl⟩ := answered
      exact ⟨inv.fewer (DeletesBatch.cons deleted .nil).shrinks.2.2, same⟩
  | deleteMessageBatch =>
      obtain ⟨sqs, deleted, rfl⟩ := answered
      exact ⟨inv.fewer deleted.shrinks.2.2, same⟩
  | changeMessageVisibility => cases answered; exact ⟨inv, same⟩
  | getParameter => obtain ⟨rfl, -⟩ := answered; exact ⟨inv, same⟩
  | getParameters => cases answered; exact ⟨inv, same⟩
  | putParameter =>
      rcases answered.1 with rfl | rfl
      · exact ⟨inv, same⟩
      · exact ⟨⟨inv.ledger, inv.bodies, inv.distinct, inv.steady⟩, same⟩
  | serverTime =>
      cases answered
      exact ⟨⟨inv.ledger, inv.bodies, inv.distinct, inv.steady⟩, same⟩
  | queryAll soql =>
      cases reply with
      | error err => cases answered; exact ⟨inv, same⟩
      | ok rows =>
          obtain ⟨-, rfl⟩ := answered
          exact ⟨inv.queries soql, List.subset_append_left _ _⟩
  | utcNow => cases answered; exact ⟨inv, same⟩
  | timeNow => cases answered; exact ⟨inv, same⟩
  | remainingTime => cases answered; exact ⟨inv, same⟩
  | random => obtain ⟨rfl, -⟩ := answered; exact ⟨inv, same⟩

end Traceable

/-! ### The programs -/

/-- A system of programs that pass on the deals that queries gave. -/
def provenance (S : Services) (rt : Runtime) : Contract World Request.Answer where
  answers := S.Answers
  inv := Traceable rt
  rely w w' := w.reads ⊆ w'.reads
  guar w w' := w.reads ⊆ w'.reads
  rely_refl w := List.Subset.refl w.reads
  rely_trans := fun first second => List.Subset.trans first second

theorem Lawful.later {rt : Runtime} {reads reads' : List (Soql × List Deal)} (more : reads ⊆ reads')
    {request : Request} (lawful : Lawful rt reads request) : Lawful rt reads' request := by
  cases request with
  | transactWriteItems items =>
      obtain ⟨order, now, same, sourced⟩ := lawful
      exact ⟨order, now, same, sourced.later more⟩
  | sendMessage => exact Vouched.later more lawful
  | sendMessageBatch => exact fun entry mem => (lawful entry mem).later more
  | _ => trivial

section Programs

variable {S : Services} {rt : Runtime} {α β : Type} {w : World}

theorem keeps_of_lawful {program : Act α} (calls : Calls (Lawful rt w.reads) program) :
    Keeps (provenance S rt) (fun _ _ => True) program w :=
  calls.keeps (fun _ _ guar => guar) fun _ _ _ _ moved inv lawful answered =>
    inv.answers (lawful.later moved) answered

theorem keeps_of_harmless {program : Act α} (calls : Calls Harmless program) :
    Keeps (provenance S rt) (fun _ _ => True) program w :=
  keeps_of_lawful (calls.mono (Harmless.lawful rt w.reads))

theorem provenance_sequence {first : β → World → Prop} {post : α → World → Prop}
    {program : Act β} {next : β → Act α} (inv : Traceable rt w)
    (start : Keeps (provenance S rt) first program w)
    (rest : ∀ value w₁, Traceable rt w₁ → w.reads ⊆ w₁.reads → first value w₁ →
      Keeps (provenance S rt) post (next value) w₁) :
    Keeps (provenance S rt) post (program >>= next) w :=
  Keeps.sequence (C := provenance S rt) (fun _ _ guar => guar) inv start rest

/-- A call that sends and writes nothing. -/
theorem provenance_ask {request : Request} {next : request.Answer → Act α} {post : α → World → Prop}
    (harmless : Harmless request)
    (step : ∀ w₁ answer w₂, Traceable rt w₁ → Traceable rt w₂ → S.Answers request w₁ answer w₂ →
      Keeps (provenance S rt) post (next answer) w₂) :
    Keeps (provenance S rt) post (Prog.perform request >>= next) w := by
  refine Keeps.perform_bind fun w₁ _ inv₁ answer w₂ answered => ?_
  obtain ⟨inv₂, more⟩ := Traceable.answers inv₁ (harmless.lawful rt w₁.reads request) answered
  exact ⟨inv₂, more, step w₁ answer w₂ inv₁ inv₂ answered⟩

/-! #### The poller -/

/-- The decoded rows are those of deals that were seen. -/
theorem query_keeps {from_ upper : Int} :
    Keeps (provenance S rt) (fun answer w => ∀ rows, answer = .ok rows → ∀ o ∈ rows, ∃ d,
        Seen w.reads d ∧ (∀ t, d.amount = some t → Exact t) ∧
        Salesforce.Opportunity.unmarshal d.row.json = .ok o)
      (Salesforce.queryAll (Ingest.query from_ upper)) w := by
  refine provenance_ask trivial fun w₁ reply w₂ inv₁ _ answered => ?_
  cases reply with
  | error err => exact fun _ failed => nomatch failed
  | ok records =>
      obtain ⟨⟨low, high, lower, higher, rfl⟩, rfl⟩ := answered
      intro rows decoded o mem
      obtain ⟨d, here, read⟩ := Ingest.exists_of_forall₂ (Ingest.forall₂_unmarshalAll decoded).flip mem
      obtain ⟨inOrg, inside⟩ := mem_selected.mp here
      have won : d.isWon = true := by
        simp only [inWindow, Bool.and_eq_true] at inside
        exact inside.1.1
      refine ⟨d, ⟨(Ingest.query from_ upper, w₁.org), List.mem_append_right _ List.mem_cons_self,
        ⟨low, high, lower, higher, inside⟩, inOrg⟩, ?_, read⟩
      exact inv₁.steady.exact_ d inOrg won

theorem poll_keeps (deep : 2 ≤ rt.depth) (p : Ingest.Poller) (inv : Traceable rt w) :
    Keeps (provenance S rt) (fun _ _ => True) p.run w := by
  refine provenance_sequence inv (keeps_of_harmless (calls_get p.watermark)) fun from_ w₁ _ _ _ => ?_
  cases from_ with
  | error err => trivial
  | ok from_ =>
      refine provenance_ask trivial fun w₂ reply w₃ _ inv₃ _ => ?_
      cases reply with
      | error err => trivial
      | ok serverNow =>
          dsimp only
          split
          · trivial
          · refine provenance_sequence inv₃ query_keeps fun answer w₄ inv₄ _ rows => ?_
            cases answer with
            | error err => trivial
            | ok os =>
                -- Every batch holds events of deals that the query saw.
                refine keeps_of_lawful (calls_publishRows p _ _ os (Harmless.lawful rt w₄.reads) ?_)
                intro evs events chunk sub entry mem order read
                obtain ⟨i, small, rfl⟩ := List.mem_mapIdx.mp mem
                obtain ⟨o, memO, t, built⟩ := Ingest.exists_of_forall₂ events.flip
                  (sub (List.getElem_mem small))
                obtain ⟨d, seen, exact_, decoded⟩ := rows os rfl o memO
                exact ⟨d, seen, depicts_of_poller deep exact_ ⟨o, t, decoded, built⟩ read⟩

/-! #### The worker -/

theorem lawful_handleRecord {settings : Settings} {record : Record} {reads : List (Soql × List Deal)}
    (vouched : Vouched rt reads record.body) (chaos : Chaos) :
    Calls (Lawful rt reads) (handleRecord rt settings record chaos) := by
  have writes : Calls (Lawful rt reads) (process rt record chaos) := by
    refine (writes_process rt record chaos).mono fun request writes => ?_
    cases request with
    | transactWriteItems items =>
        obtain ⟨order, now, read, rfl⟩ := writes
        exact ⟨order, now, rfl, vouched order read⟩
    | sendMessage | sendMessageBatch => exact writes.elim
    | _ => trivial
  apply writes.bind
  intro result
  cases result with
  | ok value => exact .ret _
  | error exc =>
      simp only [handleFailure]
      split
      · -- The body goes to the DLQ as it came.
        apply Calls.bind
        · apply Calls.perform_bind trivial
          intro now
          refine Calls.perform_bind ?_ fun reply => ?_
          · exact vouched
          · cases reply <;> exact .ret _
        · exact fun _ => .ret _
      · refine (delays_retry settings record).mono fun request delays => ?_
        cases request <;> first | exact delays.elim | trivial

theorem cycle_traceable (settings : Settings) :
    Keeps (provenance S rt) (fun _ _ => True) (cycle rt settings) w := by
  refine provenance_ask trivial fun w₁ reply w₂ inv₁ _ answered => ?_
  obtain ⟨sqs, ⟨rfl, batch⟩, rfl⟩ := answered
  rcases reply with err | _ | ⟨first, rest⟩
  · trivial
  · trivial
  · apply keeps_of_lawful
    have each : ∀ chaos, ∀ record ∈ (first :: rest).map toRecord,
        Calls (Lawful rt w₁.reads) (handleRecord rt settings record chaos) := by
      intro chaos record mem
      obtain ⟨m, here, rfl⟩ := List.mem_map.mp mem
      have queued : m.message ∈ w₁.sqs.queue .main := ((batch _ rfl).2 m here).1
      have vouched : Vouched rt w₁.reads (toRecord m).body := inv₁.bodies .main m.message queued
      exact lawful_handleRecord vouched chaos
    apply (calls_invoke (Harmless.lawful rt w₁.reads) each).bind
    intro failed
    cases failed with
    | none => exact .ret _
    | some failed =>
        dsimp only
        split
        · exact .ret _
        · exact Calls.perform_bind trivial fun _ => .ret _

/-! #### The operator -/

theorem redrive_traceable (fuel : Nat) (all dryRun : Bool) (inv : Traceable rt w) :
    Keeps (provenance S rt) (fun _ _ => True) (redrive fuel all dryRun) w := by
  have peeked : Keeps (provenance S rt) (fun result w => ∀ found, result = some found →
      ∀ d ∈ found.1, Vouched rt w.reads d.body) (peekLoop 1000 fuel 0 []) w := by
    refine peekLoop_keeps rfl (fun w => List.Subset.refl w.reads)
      (fun _ _ _ moved vouched => vouched.later moved) ?_ 1000 fuel 0 [] w (fun _ mem => nomatch mem)
    exact fun _ m inv queued _ => inv.bodies .deadLetters m.message queued
  refine provenance_sequence inv peeked fun found w₁ inv₁ _ vouched => ?_
  rcases found with _ | ⟨msgs, _ | err⟩
  · trivial
  · have lawful : Calls (Lawful rt w₁.reads) (redriveLoop all dryRun ⟨[], []⟩ [] msgs) :=
      calls_redriveLoop_each all dryRun
        (fun request releases => releases.harmless.lawful rt w₁.reads request) (fun _ _ => trivial)
        (fun m mem => vouched _ rfl m mem) _ _
    exact keeps_of_lawful (lawful.bind fun _ => .ret _)
  · exact keeps_of_harmless ((calls_release msgs).bind fun _ => .ret _)

/-! #### The reconciler -/

/-- A reconciliation asks for the won deals first. It neither sends nor writes, and
the events of its report are those of the deals that it is answered. -/
theorem reconcile_call (rt : Runtime) (fuel : Nat) (now grace : Int) : ∃ after,
    Reconciler.reconcile rt fuel now grace = .call (.queryAll .won) after ∧
    (∀ answer, Calls Harmless (after answer)) ∧
    ∀ (reply : Except String (List (Json.Value Json.Token))) (deals : List Deal),
      (∀ records, reply = .ok records → records = deals.map fun d => d.row.json) →
      Returns (fun result => ∀ report, result = some (.ok report) → ∀ event ∈ report.toEnqueue,
          ∃ d ∈ deals, ∃ row stamp, Reconciler.loadRow d.row = .ok row ∧
            Reconciler.parseModstamp row.systemModstamp = .ok stamp ∧
            event = Reconciler.eventOf row stamp now)
        (after reply) := by
  refine ⟨_, rfl, (calls_reconcile rt fuel now grace).2, fun reply deals shown => ?_⟩
  refine @Returns.bind _ _ _ _ _ (fun answer => ∀ objs, answer = .ok objs →
    Reconciler.loadAll (deals.map fun d => d.row.json) = .ok objs) _ _ ?_ fun answer loaded => ?_
  · cases reply with
    | error err => exact fun _ failed => nomatch failed
    | ok records => exact fun objs loaded => shown records rfl ▸ loaded
  cases answer with
  | error exc => exact fun _ failed => nomatch failed
  | ok records =>
      apply (Returns.any _).bind
      intro versions _
      rcases versions with _ | exc | orderVersions
      · exact fun _ failed => nomatch failed
      · exact fun _ failed => nomatch failed
      · dsimp only
        cases read : Reconciler.readRows records with
        | error exc => exact fun _ failed => nomatch failed
        | ok wonDeals =>
            apply (Reconciler.returns_compare rt wonDeals orderVersions _ now grace).bind
            rintro result reported report ⟨⟩ event mem
            obtain ⟨report₀, checked, same⟩ := reported report rfl
            rw [same] at mem
            rcases (Reconciler.mem_checkDeals checked event).mp mem with none_ | ⟨row, here, enqueued⟩
            · cases none_
            · obtain ⟨stamp, parsed, made⟩ := Reconciler.stamp_of_enqueued enqueued
              obtain ⟨d, memD, load⟩ := Ingest.exists_of_forall₂
                (Reconciler.forall₂_readRows (loaded records rfl) read).flip here
              exact ⟨d, memD, row, stamp, load, parsed, made⟩

theorem handler_traceable (deep : 2 ≤ rt.depth) (settings : Reconciler.Settings) (fuel : Nat)
    (event : Reconciler.Invocation) (inv : Traceable rt w) :
    Keeps (provenance S rt) (fun _ _ => True) (Reconciler.handler rt settings fuel event) w := by
  refine provenance_sequence inv (keeps_of_harmless (calls_salesforce rt settings.paramPrefix))
    fun client w₁ inv₁ _ _ => ?_
  cases client with
  | error exc => trivial
  | ok value =>
      refine provenance_ask trivial fun w₂ now w₃ _ inv₃ _ => ?_
      obtain ⟨after, shape, harmless, ends⟩ := reconcile_call rt fuel now
        (Reconciler.minutes (event.graceMinutes.getD settings.graceMinutes))
      rw [shape, Prog.call_bind]
      refine provenance_ask trivial fun w₄ reply w₅ inv₄ _ answered => ?_
      obtain ⟨deals, shown, seen⟩ : ∃ deals : List Deal,
          (∀ records, reply = .ok records → records = deals.map fun d => d.row.json) ∧
          ∀ d ∈ deals, Seen w₅.reads d := by
        cases reply with
        | error err => exact ⟨[], fun _ failed => (nomatch failed), fun _ mem => (nomatch mem)⟩
        | ok records =>
            obtain ⟨rfl, rfl⟩ := answered
            refine ⟨selected (fun d => d.isWon) w₄.org, fun _ done => (Except.ok.inj done).symm,
              fun d mem => ?_⟩
            obtain ⟨inOrg, won⟩ := mem_selected.mp mem
            exact ⟨(.won, w₄.org), List.mem_append_right _ List.mem_cons_self, won, inOrg⟩
      refine keeps_of_lawful (Calls.bind_returns
        ((harmless reply).mono (Harmless.lawful rt _)) (ends reply deals shown) fun result reported => ?_)
      rcases result with _ | exc | report
      · exact .ret _
      · exact .ret _
      · dsimp only
        split
        · exact .ret _
        · refine (calls_enqueueBatches (fun chunk mem sent made entry here => ?_) 0).bind fun enqueued => ?_
          · -- The entry's event is that of a deal that the query saw.
            obtain ⟨event, inChunk, dumped, -⟩ := mem_entries made entry here
            have inReport := (Data.mem_batches (by decide)).mp ⟨chunk, mem, inChunk⟩
            obtain ⟨d, won, row, stamp, load, parsed, rfl⟩ := reported report rfl event inReport
            intro order read
            have read : Reconciler.orderOfEvent rt (Reconciler.eventOf row stamp now) = .ok order := by
              rw [Reconciler.orderOfEvent, dumped]
              exact read
            exact ⟨d, seen d won, depicts_of_reconciler deep load parsed now read⟩
          · cases enqueued <;> exact .ret _

end Programs

end Relay.Delivery
