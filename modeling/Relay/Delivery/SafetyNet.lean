import Relay.Delivery.CatchUp
import Relay.Reconciler.WireStamps

/-!
The reconciler is the safety net.

A reconciliation runs while everything else goes on: the ERP is written to, messages
come, are parked and are deleted, other deals change. Whatever the poller missed
before it, a deal that was won and out of grace is stored when the scan reads it, or
re-enqueued (`reconcile_finds`), and the batches that SQS took are on the main queue
(`enqueueBatches_sends`). One drain then brings the deal to the ERP
(`repaired_by_reconcile`).
-/

namespace Relay.Delivery

open Relay.Effect Relay.Platform Relay.Python Relay.Salesforce Relay.Worker Relay.Erp Relay.Sqs
  Relay.Events

/-- The Lambda's clock shows `since` or later. -/
def NotBefore (since : Int) : (request : Request) → request.Answer → Prop
  | .utcNow, now => since ≤ now
  | _, _ => True

/-- The answers of the services, from some time on. -/
def Clocked (S : Services) (since : Int) (request : Request) (w : World) (reply : request.Answer)
    (w' : World) : Prop :=
  S.Answers request w reply w' ∧ NotBefore since request reply

theorem untimed_clocked (S : Services) (since : Int) : Untimed S (Clocked S since) := by
  intro request w reply w' timed answered
  cases request with
  | utcNow => exact absurd rfl timed
  | _ => exact ⟨answered, trivial⟩

/-- What happens around a reconciliation: the ERP is written to, a queue accepts a message or loses
one that nothing is lost with, SQS moves a message to the DLQ, and deals change other than these. -/
inductive Meanwhile (rt : Runtime) (deals : Deal → Prop) : World → World → Prop where
  | writes {w : World} {erp : Dynamo.State Table} : Extends w.erp erp →
      Meanwhile rt deals w { w with erp := erp }
  | produce {w : World} {q : Queue} {body : String} {attributes : List (String × String)}
      {sqs : Sqs.State Queue} : Sent q body attributes w.sqs sqs →
      Meanwhile rt deals w { w with sqs := sqs }
  | delete {w : World} {q : Queue} {m : Message} : Accepted w m → Resolved rt w m →
      Meanwhile rt deals w { w with sqs := w.sqs.remove q m.messageId }
  | park {w : World} {m : Message} : m ∈ w.sqs.queue .main →
      Meanwhile rt deals w { w with sqs := w.sqs.move .main .deadLetters m }
  | elsewhere {w w' : World} : w'.erp = w.erp → w'.sqs = w.sqs →
      (∀ d, deals d → d ∈ w.org → d ∈ w'.org) → Meanwhile rt deals w w'

/-- Writes and accepted sends were only added, and these deals are as they were. -/
def Nets (deals : Deal → Prop) (w w' : World) : Prop :=
  Grows w w' ∧ ∀ d, deals d → d ∈ w.org → d ∈ w'.org

/-- The services answer as they may. -/
def Within (answers : (request : Request) → World → request.Answer → World → Prop) (S : Services) : Prop :=
  ∀ request w reply w', answers request w reply w' → S.Answers request w reply w'

/-- A world in which a reconciliation runs beside everything else. -/
def netting (answers : (request : Request) → World → request.Answer → World → Prop) (rt : Runtime)
    (deals : Deal → Prop) : Contract World Request.Answer where
  answers := answers
  inv := Accounted rt
  rely := Nets deals
  guar := Nets deals
  rely_refl w := ⟨Grows.refl w, fun _ _ => id⟩
  rely_trans := fun first second =>
    ⟨first.1.trans second.1, fun d here mem => second.2 d here (first.2 d here mem)⟩

section Calls

variable {S : Services} {rt : Runtime} {deals : Deal → Prop} {w w' : World}

theorem nets_adds {request : Request} (adds : Adds request) {reply : request.Answer}
    (answered : S.Answers request w reply w') (inv : Accounted rt w) :
    Accounted rt w' ∧ Nets deals w w' := by
  obtain ⟨inv', grows⟩ := accounted_adds adds answered inv
  exact ⟨inv', grows, fun _ _ mem => org_of_answers answered ▸ mem⟩

theorem nets_meanwhile (inv : Accounted rt w) (step : Meanwhile rt deals w w') :
    Accounted rt w' ∧ Nets deals w w' := by
  cases step with
  | writes more => exact ⟨inv.written more, ⟨more, List.prefix_rfl⟩, fun _ _ => id⟩
  | produce sent =>
      obtain ⟨m, -, -, fresh, rfl⟩ := sent
      exact ⟨inv.push fresh, ⟨Extends.refl _, List.prefix_append _ _⟩, fun _ _ => id⟩
  | delete accepted resolved =>
      exact ⟨inv.remove accepted resolved, ⟨Extends.refl _, List.prefix_rfl⟩, fun _ _ => id⟩
  | park here => exact ⟨inv.move (by decide) here, ⟨Extends.refl _, List.prefix_rfl⟩, fun _ _ => id⟩
  | elsewhere sameErp sameSqs stay =>
      obtain ⟨inv', grows⟩ := inv.elsewhere sameErp sameSqs
      exact ⟨inv', grows, stay⟩

end Calls

section Programs

variable {S : Services} {answers : (request : Request) → World → request.Answer → World → Prop}
  {rt : Runtime} {deals : Deal → Prop} {α β : Type} {w : World}

theorem netting_sequence {first : β → World → Prop} {post : α → World → Prop}
    {program : Act β} {next : β → Act α} (inv : Accounted rt w)
    (start : Keeps (netting answers rt deals) first program w)
    (rest : ∀ value w₁, Accounted rt w₁ → Nets deals w w₁ → first value w₁ →
      Keeps (netting answers rt deals) post (next value) w₁) :
    Keeps (netting answers rt deals) post (program >>= next) w :=
  Keeps.sequence (C := netting answers rt deals) (fun _ _ guar => guar) inv start rest

/-- A call that takes no message away and writes to no table. -/
theorem netting_ask (within : Within answers S) {request : Request} {next : request.Answer → Act α}
    {post : α → World → Prop} (adds : Adds request)
    (step : ∀ w₁ answer w₂, Nets deals w w₁ → Nets deals w₁ w₂ → Accounted rt w₁ → Accounted rt w₂ →
      S.Answers request w₁ answer w₂ → answers request w₁ answer w₂ →
      Keeps (netting answers rt deals) post (next answer) w₂) :
    Keeps (netting answers rt deals) post (Prog.perform request >>= next) w := by
  refine Keeps.perform_bind fun w₁ moved inv₁ answer w₂ answered => ?_
  have may := within _ _ _ _ answered
  obtain ⟨inv₂, nets⟩ := nets_adds adds may inv₁
  exact ⟨inv₂, nets, step w₁ answer w₂ moved nets inv₁ inv₂ may answered⟩

/-- A program that only adds returns what it returns in any world. -/
theorem netting_returns (within : Within answers S) {post : α → Prop} {program : Act α}
    (calls : Calls Adds program) (ends : Returns post program) :
    Keeps (netting answers rt deals) (fun value w₁ => post value ∧ Nets deals w w₁) program w := by
  refine Keeps.moved (C := netting answers rt deals) (fun _ _ guar => guar) ?_
  exact calls.keeps_returns (fun _ _ guar => guar) ends
    fun _ _ _ _ _ inv adds answered => nets_adds adds (within _ _ _ _ answered) inv

/-! ### The scan -/

/-- Every version that was scanned is stored, or a newer one. -/
def Backed (versions : Reconciler.Versions) (w : World) : Prop :=
  ∀ id version, versions.lookup id = some version → StoredFrom w.erp id version

theorem Backed.nets {versions : Reconciler.Versions} {w w' : World} (backed : Backed versions w)
    (inv : Accounted rt w) (nets : Nets deals w w') : Backed versions w' :=
  fun id version scanned => (backed id version scanned).extends inv.kept nets.1.writes

/-- After a page, an order has the version that its item had when the page was read, or the version
that it had before, if the page has no item of it. -/
theorem lookup_of_page {items : List Dynamo.Item} {versions versions' : Reconciler.Versions}
    (kept : Kept w.erp) (held : ∀ item ∈ items, ∃ key, w.erp.db .orders key = some item)
    (added : Reconciler.addItems versions items = .ok versions') (id : String) :
    (∃ item version, w.erp.db .orders id = some item ∧ Reconciler.Versioned item id version ∧
        versions'.lookup id = some version) ∨
      (w.erp.db .orders id ∉ items.map some ∧ versions'.lookup id = versions.lookup id) := by
  induction items generalizing versions with
  | nil =>
      cases added
      exact .inr ⟨by simp, rfl⟩
  | cons item rest ih =>
      obtain ⟨key, here⟩ := held item List.mem_cons_self
      obtain ⟨version, versioned⟩ := Reconciler.versioned_of_kept kept here
      have added : Reconciler.addItems (Reconciler.setVersion key version versions) rest =
          .ok versions' := by
        rw [Reconciler.addItems, versioned.1, Reconciler.storedVersion_of_versioned versioned] at added
        exact added
      rcases ih (fun item mem => held item (List.mem_cons_of_mem _ mem)) added with found | ⟨none_, same⟩
      · exact .inl found
      · rw [Reconciler.lookup_setVersion] at same
        split at same
        · rename_i own
          subst own
          exact .inl ⟨item, version, here, versioned, same⟩
        · rename_i other
          refine .inr ⟨fun mem => ?_, same⟩
          rcases List.mem_cons.mp mem with first | mem
          · obtain ⟨version', versioned'⟩ := Reconciler.versioned_of_kept kept first
            have ids := versioned'.1.symm.trans versioned.1
            exact other (Dynamo.AttrVal.s.inj (Option.some.inj ids))
          · exact none_ mem

/-- The items of a page back their versions. -/
theorem backed_addItems {items : List Dynamo.Item} {versions versions' : Reconciler.Versions}
    (inv : Accounted rt w) (backed : Backed versions w)
    (held : ∀ item ∈ items, ∃ key, w.erp.db .orders key = some item)
    (added : Reconciler.addItems versions items = .ok versions') : Backed versions' w := by
  intro id version scanned
  rcases lookup_of_page inv.kept held added id with ⟨item, version', here, versioned, found⟩ | ⟨-, same⟩
  · cases found.symm.trans scanned
    exact ⟨item, version, here, versioned.2, le_refl _⟩
  · exact backed id version (same ▸ scanned)

theorem scanPages_backs (within : Within answers S) (fuel : Nat) (start : Option String)
    {versions : Reconciler.Versions}
    (inv : Accounted rt w) (backed : Backed versions w) :
    Keeps (netting answers rt deals) (fun result w => ∀ versions, result = some (.ok versions) →
      Backed versions w) (Reconciler.scanPages fuel start versions) w := by
  induction fuel generalizing start versions w with
  | zero => exact fun _ ended => nomatch ended
  | succ fuel ih =>
      refine netting_ask within trivial fun w₁ reply w₂ moved _ inv₁ _ answered _ => ?_
      obtain ⟨rfl, pages⟩ := answered
      cases reply with
      | error fault => exact fun _ failed => nomatch failed
      | ok page =>
          dsimp only
          split
          · exact fun _ failed => nomatch failed
          · rename_i versions₁ added
            have held : ∀ item ∈ page.items, ∃ key, w₂.erp.db .orders key = some item := by
              intro item mem
              obtain ⟨key, -, here⟩ := (pages page rfl).sound item mem
              exact ⟨key, here⟩
            have backed₁ := backed_addItems inv₁ (backed.nets inv moved) held added
            split
            · rintro versions' ⟨⟩
              exact backed₁
            · exact ih _ inv₁ backed₁

/-! ### The comparison -/

/-- A deal that is stored at its version or a newer one, or has its event in the report. -/
def Covered (now grace : Int) (report : Reconciler.Report) (w : World) (d : Deal) : Prop :=
  ∀ row stamp, Reconciler.loadRow d.row = .ok row →
    Reconciler.parseModstamp (wireText d.systemModstamp) = .ok stamp → stamp ≤ now - grace →
    Reconciler.Mappable row stamp →
    StoredFrom w.erp d.id (Reconciler.version stamp) ∨
      Reconciler.eventOf row stamp now ∈ report.toEnqueue

theorem covered_of_checkDeals {rows : List (Row PyNum)} {versions : Reconciler.Versions}
    {now grace : Int} {report : Reconciler.Report} (backed : Backed versions w)
    (checked : Reconciler.checkDeals rt versions now grace (Reconciler.emptyReport versions) rows =
      .ok report) {d : Deal}
    (listed : ∃ row ∈ rows, Reconciler.loadRow d.row = .ok row) : Covered now grace report w d := by
  intro row stamp load parsed out mappable
  obtain ⟨row', mem, load'⟩ := listed
  cases load.symm.trans load'
  obtain ⟨amount, rfl⟩ := withAmount_of_loadRow load
  have parsed : Reconciler.parseModstamp (d.row.withAmount amount).systemModstamp = .ok stamp := parsed
  have enqueue : Reconciler.Enqueued rt versions now grace (d.row.withAmount amount)
      (Reconciler.eventOf (d.row.withAmount amount) stamp now) →
      Reconciler.eventOf (d.row.withAmount amount) stamp now ∈ report.toEnqueue := fun enqueued =>
    (Reconciler.mem_checkDeals checked _).mpr (.inr ⟨_, mem, enqueued⟩)
  cases found : versions.lookup d.id with
  | none =>
      obtain ⟨order, mapped⟩ := Reconciler.mapped_iff.mpr mappable
      exact .inr (enqueue (.missing parsed out found mapped))
  | some stored =>
      by_cases older : stored < Reconciler.version stamp
      · exact .inr (enqueue (.stale parsed out found older))
      · obtain ⟨item, version, here, value, le⟩ := backed d.id stored found
        exact .inl ⟨item, version, here, value, (not_lt.mp older).trans le⟩

/-- The answer to the WON query has every won deal that stayed as it was. -/
theorem won_keeps (within : Within answers S) : Keeps (netting answers rt deals)
    (fun answer _ => ∀ records, answer = .ok records → ∃ won : List Deal,
      (∀ d, deals d → d ∈ w.org → d.isWon = true → d ∈ won) ∧
      Reconciler.loadAll (won.map fun d => d.row.json) = .ok records)
    (Reconciler.queryAll .won) w := by
  refine netting_ask within trivial fun w₁ reply w₂ moved _ _ _ answered _ => ?_
  cases reply with
  | error err => exact fun _ failed => nomatch failed
  | ok rows =>
      obtain ⟨rfl, -⟩ := answered
      intro records loaded
      exact ⟨_, fun d of here won => mem_selected.mpr ⟨moved.2 d of here, won⟩, loaded⟩

/-- A reconciliation finds every won deal that stayed as it was. -/
theorem reconcile_finds (within : Within answers S) (fuel : Nat) (now grace : Int) (inv : Accounted rt w) :
    Keeps (netting answers rt deals)
      (fun result w' => ∀ report, result = some (.ok report) → ∀ d, deals d → d ∈ w.org →
        d.isWon = true → Covered now grace report w' d)
      (Reconciler.reconcile rt fuel now grace) w := by
  refine netting_sequence inv (won_keeps within) fun answer w₃ inv₃ _ shown => ?_
  cases answer with
  | error exc => exact fun _ failed => nomatch failed
  | ok records =>
      obtain ⟨wonDeals, listed, loaded⟩ := shown records rfl
      refine netting_sequence inv₃ (scanPages_backs within fuel none inv₃ fun _ _ none_ => nomatch none_)
        fun result w₄ inv₄ _ scanned => ?_
      rcases result with _ | exc | versions
      · exact fun _ failed => nomatch failed
      · exact fun _ failed => nomatch failed
      · dsimp only
        cases read : Reconciler.readRows records with
        | error exc => exact fun _ failed => nomatch failed
        | ok rows =>
            have adds : Calls Adds (Reconciler.compare rt rows versions Reconciler.stageLookup now grace) :=
              (@reconciles_compare "" rt rows versions now grace).mono fun _ reads => reads.adds
            refine netting_sequence inv₄ (netting_returns within adds
              (Reconciler.returns_compare rt rows versions _ now grace)) fun result w₅ _ _ ends => ?_
            rintro report ⟨⟩ d of here won
            obtain ⟨compared, nets⟩ := ends
            obtain ⟨report₀, checked, same⟩ := compared report rfl
            have listed := Ingest.exists_of_forall₂ (Reconciler.forall₂_readRows loaded read)
              (listed d of here won)
            intro row stamp load parsed out mappable
            rw [same]
            have backed := (scanned versions rfl).nets inv₄ nets
            exact covered_of_checkDeals backed checked listed row stamp load parsed out mappable

/-! ### The batches -/

/-- Each event has its entry. -/
theorem forall₂_entries {events : List (List (String × Obj))} {sent : List Entry} :
    ∀ {n : Nat}, Reconciler.entries n events = .ok sent →
      List.Forall₂ (fun event entry => dumpsText (.obj event) = .ok entry.body) events sent := by
  induction events generalizing sent with
  | nil =>
      intro n made
      cases made
      exact .nil
  | cons event rest ih =>
      intro n made
      unfold Reconciler.entries at made
      split at made
      · cases made
      · rename_i body text
        cases others : Reconciler.entries (n + 1) rest with
        | error exc =>
            rw [others] at made
            cases made
        | ok more =>
            rw [others] at made
            cases made
            exact .cons text (ih others)

/-- The main queue accepted a message with the event. -/
def Posted (w : World) (event : List (String × Obj)) : Prop :=
  ∃ m : Message, (Queue.main, m) ∈ w.sqs.accepted ∧ dumpsText (.obj event) = .ok m.body

theorem Posted.nets {w w' : World} {event : List (String × Obj)} (posted : Posted w event)
    (nets : Nets deals w w') : Posted w' event := by
  obtain ⟨m, sent, dumped⟩ := posted
  exact ⟨m, nets.1.sends.subset sent, dumped⟩

/-- SQS counts at most a batch, and all of it only if it took all of it. -/
theorem posted_of_sendsBatch {events : List (List (String × Obj))} {sent : List Entry}
    (made : Reconciler.entries 0 events = .ok sent) {out : BatchReply} {sqs : Sqs.State Queue}
    (answered : SendsBatch .main sent w.sqs (.ok out) sqs) :
    out.successful.length ≤ events.length ∧
      (out.successful.length = events.length → ∀ event ∈ events, Posted { w with sqs := sqs } event) := by
  obtain ⟨stored, sub, sentAll, listed⟩ := answered
  obtain ⟨-, ids⟩ := listed out rfl
  have entries := forall₂_entries made
  have successful : out.successful.length = stored.length := by rw [ids, List.length_map]
  have all := entries.length_eq
  refine ⟨by have := sub.length_le; omega, fun full event mem => ?_⟩
  obtain rfl : stored = sent := sub.eq_of_length (by omega)
  obtain ⟨entry, inSent, dumped⟩ := Ingest.exists_of_forall₂ entries mem
  obtain ⟨ms, accepted, messages⟩ := sentAll.accepted
  obtain ⟨m, inMs, of⟩ := Ingest.exists_of_forall₂ messages inSent
  refine ⟨m, ?_, of.1 ▸ dumped⟩
  show _ ∈ sqs.accepted
  rw [accepted]
  exact List.mem_append_right _ (List.mem_map_of_mem inMs)

/-- A count of all events means that the main queue accepted them all. -/
theorem enqueueBatches_sends (within : Within answers S) {batches : List (List (List (String × Obj)))} :
    ∀ (enqueued : Nat) (w : World),
      Keeps (netting answers rt deals)
        (fun result w => ∀ total, result = .ok total →
          total ≤ enqueued + batches.flatten.length ∧
          (total = enqueued + batches.flatten.length → ∀ event ∈ batches.flatten, Posted w event))
        (Reconciler.enqueueBatches enqueued batches) w := by
  induction batches with
  | nil =>
      rintro enqueued w total ⟨⟩
      exact ⟨le_refl _, fun _ _ mem => nomatch mem⟩
  | cons chunk rest ih =>
      intro enqueued w
      unfold Reconciler.enqueueBatches
      split
      · exact fun _ failed => nomatch failed
      · rename_i sent made
        refine netting_ask within trivial fun w₁ reply w₂ _ _ _ inv₂ answered _ => ?_
        obtain ⟨sqs, sends, rfl⟩ := answered
        cases reply with
        | error err => exact fun _ failed => nomatch failed
        | ok out =>
            obtain ⟨most, posted⟩ := posted_of_sendsBatch made sends
            refine Keeps.mono (fun result w₃ _ ends => ?_) inv₂
              (Keeps.moved (C := netting answers rt deals) (fun _ _ guar => guar)
                (ih (enqueued + out.successful.length) _))
            rintro total done
            obtain ⟨bound, others⟩ := ends.1 total done
            rw [List.flatten_cons, List.length_append]
            refine ⟨by omega, fun full event mem => ?_⟩
            rcases List.mem_append.mp mem with mem | mem
            · exact (posted (by omega) event mem).nets ends.2
            · exact others (by omega) event mem

/-- A deal that is stored at its version or a newer one, or has its event on the main queue. -/
def Netted (since grace : Int) (w : World) (d : Deal) : Prop :=
  ∀ row stamp, Reconciler.loadRow d.row = .ok row →
    Reconciler.parseModstamp (wireText d.systemModstamp) = .ok stamp → stamp ≤ since - grace →
    Reconciler.Mappable row stamp →
    StoredFrom w.erp d.id (Reconciler.version stamp) ∨
      ∃ now, Posted w (Reconciler.eventOf row stamp now)

/-- An invocation that re-enqueued all that it found nets every won deal that stayed as it was. -/
theorem handler_nets {since : Int} (settings : Reconciler.Settings) (fuel : Nat) {event : Reconciler.Invocation}
    (live : event.dryRun = false) (inv : Accounted rt w) :
    Keeps (netting (Clocked S since) rt deals)
      (fun result w' => ∀ summary, result = some (.ok summary) →
        summary.reenqueued = summary.report.toEnqueue.length → ∀ d, deals d → d ∈ w.org →
        d.isWon = true →
        Netted since (Reconciler.minutes (event.graceMinutes.getD settings.graceMinutes)) w' d)
      (Reconciler.handler rt settings fuel event) w := by
  have configured := (reconciles_salesforce rt settings.paramPrefix).mono fun _ reads => reads.adds
  have within : Within (Clocked S since) S := fun _ _ _ _ clocked => clocked.1
  refine netting_sequence inv (netting_returns within configured (Returns.any _))
    fun client w₁ inv₁ kept _ => ?_
  cases client with
  | error exc => exact fun _ failed => nomatch failed
  | ok value =>
      refine netting_ask within trivial fun w₂ now w₃ moved _ _ inv₃ answered clocked => ?_
      obtain ⟨rfl, late⟩ := clocked
      refine netting_sequence inv₃ (reconcile_finds within fuel now _ inv₃) fun result w₄ inv₄ _ finds => ?_
      rcases result with _ | exc | report
      · exact fun _ failed => nomatch failed
      · exact fun _ failed => nomatch failed
      · have covers : ∀ d, deals d → d ∈ w.org → d.isWon = true → Covered now _ report w₄ d :=
          fun d of here won => finds report rfl d of (moved.2 d of (kept.2 d of here)) won
        have late : since ≤ now := late
        dsimp only
        split
        · rename_i nothing
          rintro summary ⟨⟩ - d of here won row stamp load parsed out mappable
          have nothing : report.toEnqueue = [] := by simpa [live] using nothing
          have covered := covers d of here won row stamp load parsed (by omega) mappable
          rw [nothing] at covered
          exact .inl (covered.resolve_right fun mem => nomatch mem)
        · refine netting_sequence inv₄ (Keeps.moved (C := netting (Clocked S since) rt deals)
            (fun _ _ guar => guar) (enqueueBatches_sends within 0 _)) fun result w₅ _ _ ends => ?_
          cases result with
          | error exc => exact fun _ failed => nomatch failed
          | ok total =>
              rintro summary ⟨⟩ all d of here won row stamp load parsed out mappable
              obtain ⟨sends, nets⟩ := ends
              obtain ⟨-, posted⟩ := sends total rfl
              rw [Data.flatten_batches (by decide), Nat.zero_add] at posted
              have covered := covers d of here won row stamp load parsed (by omega) mappable
              exact covered.imp (fun stored => stored.extends inv₄.kept nets.1.writes)
                fun mem => ⟨now, posted all _ mem⟩

end Programs

/-! ### Every interleaving -/

/-- The programs of every component, with any poller. -/
def AnySync (rt : Runtime) (component : Component) (program : Act Unit) : Prop :=
  ∃ p, Syncs rt p component program

theorem accounted_anySync {S : Services} {rt : Runtime} {w : World}
    {s : Pool World Component Request.Answer Unit} (start : Accounted rt w)
    (reached : Pool.Reaches S.Answers Around (AnySync rt) (Pool.idle w) s) : Accounted rt s.world := by
  have sound : Pool.Sound (system S rt) (fun _ _ _ => True) s := by
    refine (Pool.sound_idle start).reaches (fun _ _ _ _ _ _ _ => trivial)
      (fun _ _ inv around => around_keeps inv around) (fun _ _ guar => guar)
      (fun _ _ _ starts inv => ?_) reached
    obtain ⟨p, syncs⟩ := starts
    exact system_syncs syncs inv
  exact sound.inv

/-- The ERP stores the deal's order, at the version that the reconciler gives it or a newer one, or
a message of that order is in the DLQ. -/
def Recovered (rt : Runtime) (w : World) (d : Deal) (stamp : Int) : Prop :=
  StoredFrom w.erp d.id (Reconciler.version stamp) ∨
    ∃ m ∈ w.sqs.queue .deadLetters, ∃ order, orderOf rt m.body = .ok order ∧ order.orderId = d.id ∧
      order.version = Reconciler.version stamp

section Drained

variable {S : Services} {rt : Runtime} {settings : Settings} {w w' : World}

/-- A drain brings a posted event to the ERP, unless its message was parked. -/
theorem recovered_of_posted (deep : 2 ≤ rt.depth) (accounted : Accounted rt w)
    (empty : w'.sqs.queue .main = []) (drains : Drains rt w w') {d : Deal} {row : Row PyNum}
    {stamp now : Int} (load : Reconciler.loadRow d.row = .ok row)
    (parsed : Reconciler.parseModstamp (wireText d.systemModstamp) = .ok stamp)
    (mappable : Reconciler.Mappable row stamp) (posted : Posted w (Reconciler.eventOf row stamp now)) :
    Recovered rt w' d stamp := by
  obtain ⟨m, sent, dumped⟩ := posted
  obtain ⟨order, mapped⟩ : ∃ order, toOrder rt (Reconciler.eventOf row stamp now) = .ok order :=
    Reconciler.mapped_iff.mpr mappable
  have keys := Reconciler.keys_of_mapped mapped
  have id : row.id = d.id := by
    obtain ⟨amount, rfl⟩ := withAmount_of_loadRow load
    rfl
  have inRange : InRange stamp := by
    obtain ⟨rfl, inRange⟩ := Reconciler.parseModstamp_wireText parsed
    exact inRange
  have read : orderOf rt m.body = .ok order := by
    have message := Reconciler.orderOf_message deep (Reconciler.loadedRow_of_loadRow load) inRange now
    rw [Reconciler.orderOfEvent, dumped] at message
    exact message.trans mapped
  have applied : Applied rt w'.erp m.body → Recovered rt w' d stamp := by
    rintro ⟨order', read', stored⟩
    obtain rfl : order' = order := Except.ok.inj (read'.symm.trans read)
    rw [keys.1, keys.2, id] at stored
    exact .inl stored
  rcases accounted.body ⟨_, sent⟩ with ⟨q, m', queued, same⟩ | already
  · cases q with
    | main =>
        rcases drains.handled m' queued with still | done | ⟨⟨exc, refused⟩, -⟩
        · rw [empty] at still
          cases still
        · exact applied (same ▸ done)
        · rw [same, read] at refused
          cases refused
    | deadLetters =>
        exact .inr ⟨m', drains.parked m' queued, order, same ▸ read, keys.1.trans id, keys.2⟩
  · exact applied (drains.applied _ already)

end Drained

/-- From any state that the system may reach, whatever its pollers have missed, an invocation of the
reconciler that re-enqueued all that it found, with anything going on beside it, and then a drain of
the main queue bring every deal that was won, complete and out of grace to the ERP, or to the DLQ. -/
theorem repaired_by_reconcile {S : Services} {rt : Runtime} (settings : Settings)
    {reconciler : Reconciler.Settings} {w w₁ : World} {s : Pool World Component Request.Answer Unit}
    {deals : Deal → Prop} {since : Int} {fuel : Nat} {event : Reconciler.Invocation}
    {summary : Reconciler.Summary} (deep : 2 ≤ rt.depth) (noRows : w.erp = Dynamo.State.empty)
    (noMessages : w.sqs = Sqs.State.empty)
    (reached : Pool.Reaches S.Answers Around (AnySync rt) (Pool.idle w) s) (live : event.dryRun = false)
    (run : Exec (Clocked S since) (Meanwhile rt deals) (Reconciler.handler rt reconciler fuel event)
      s.world (some (.ok summary)) w₁)
    (all : summary.reenqueued = summary.report.toEnqueue.length)
    (readable : ∀ m ∈ w₁.sqs.queue .main, Readable rt m.body) {n : Nat}
    (enough : (w₁.sqs.queue .main).length ≤ n) :
    (∃ w₂, Exec (Serves S settings) Aside (cycles rt settings n) w₁ () w₂) ∧
    ∀ w₂, Exec (Serves S settings) Aside (cycles rt settings n) w₁ () w₂ →
      ∀ d, deals d → d ∈ s.world.org → d.isWon = true → ∀ row stamp,
        Reconciler.loadRow d.row = .ok row →
        Reconciler.parseModstamp (wireText d.systemModstamp) = .ok stamp →
        stamp ≤ since - Reconciler.minutes (event.graceMinutes.getD reconciler.graceMinutes) →
        Reconciler.Mappable row stamp → Recovered rt w₂ d stamp := by
  refine ⟨?_, fun w₂ drain d of here won row stamp load parsed out mappable => ?_⟩
  · obtain ⟨value, w₂, drain⟩ := exists_run_of_serves S settings Aside (cycles rt settings n) w₁
    exact ⟨w₂, drain⟩
  · have accounted := accounted_anySync (accounted_start noRows noMessages) reached
    have nets : Keeps (netting (Clocked S since) rt deals) _
        (Reconciler.handler rt reconciler fuel event) s.world :=
      handler_nets reconciler fuel live accounted
    obtain ⟨accounted₁, ends⟩ := nets.exec (fun _ _ inv step => nets_meanwhile inv step) accounted run
    obtain ⟨empty, drains⟩ := drained accounted₁ readable enough drain
    rcases ends summary rfl all d of here won row stamp load parsed out mappable with stored | ⟨now, posted⟩
    · exact .inl (stored.extends accounted₁.kept drains.writes)
    · exact recovered_of_posted deep accounted₁ empty drains load parsed mappable posted

/-! ### A deal that no poll has shown -/

section Renewal

variable {S : Services} {env : World → World → Prop}

/-- The rounded version of the deal's stamp. -/
theorem version_renewalFor : Reconciler.version 1000000 = 1000 := by
  have slips := @Reconciler.version_millis 1000 (by norm_num)
  rw [if_neg (by decide)] at slips
  exact slips

theorem mappable_renewalFor : Reconciler.Mappable
    ((renewalFor 7000).row.withAmount (some (.int 7000) : Option (Json.Number PyNum))) 1000000 where
  billable := ⟨by decide, ⟨_, rfl, by decide⟩, ⟨_, rfl, by decide⟩, ⟨_, rfl, rfl⟩⟩
  positive := by
    rw [version_renewalFor]
    decide
  total := ⟨_, .ofInt 7000, rfl, rfl⟩

/-- Without any order, a comparison re-enqueues a deal that maps. -/
theorem compare_one {rt : Runtime} {row : Row PyNum} {stamp now grace : Int} {order : Order}
    (parsed : Reconciler.parseModstamp row.systemModstamp = .ok stamp) (out : stamp ≤ now - grace)
    (mapped : toOrder rt (Reconciler.eventOf row stamp now) = .ok order) :
    ∃ report, Reconciler.compare rt [row] [] Reconciler.stageLookup now grace = pure (.ok report) ∧
      report.toEnqueue = [Reconciler.eventOf row stamp now] := by
  refine ⟨((Reconciler.emptyReport []).counted.add ⟨.missingOrder, row.id, ""⟩).enqueue
    (Reconciler.eventOf row stamp now), ?_, rfl⟩
  have checked : Reconciler.checkDeal rt [] now grace (Reconciler.emptyReport []) row =
      .ok (((Reconciler.emptyReport []).counted.add ⟨.missingOrder, row.id, ""⟩).enqueue
        (Reconciler.eventOf row stamp now)) := by
    rw [Reconciler.checkDeal, parsed]
    dsimp only
    rw [if_neg (not_lt.mpr out), Reconciler.fromSalesforce, parsed]
    dsimp only [Reconciler.checkEvent, List.lookup_nil]
    rw [mapped]
    rfl
  rw [Reconciler.compare, Reconciler.checkDeals, checked]
  rfl

/-- The scan of empty tables. -/
theorem scan_nothing {w : World} {since : Int} (noRows : w.erp = Dynamo.State.empty) :
    Exec (Clocked S since) env (Reconciler.scanOrderVersions 1) w (some (.ok [])) w := by
  have page : S.Answers (.scan .orders none) w (.ok ⟨[], none⟩) w := by
    refine ⟨rfl, fun page same => ?_⟩
    obtain rfl := Except.ok.inj same
    refine ⟨?_, fun key item _ here => ?_, ?_⟩
    · rintro item ⟨⟩
    · rw [noRows] at here
      cases here
    · rintro key ⟨⟩
  exact .call .refl ⟨page, trivial⟩ .ret

/-- A batch of one event that empty queues take. -/
theorem enqueueBatches_one {w₀ w : World} {event : List (String × Obj)} {body : String} {since : Int}
    (moves : Relation.ReflTransGen env w₀ w) (noMessages : w.sqs = Sqs.State.empty)
    (dumped : dumpsText (.obj event) = .ok body) :
    ∃ m : Message, m.body = body ∧
      Exec (Clocked S since) env (Reconciler.enqueueBatches 0 (Data.batches 10 [event])) w₀ (.ok 1)
        { w with sqs := Sqs.State.empty.push .main m } := by
  obtain ⟨entry, carried⟩ : ∃ entry : Entry, entry =
      ⟨toString 0, body, [("event_key", Reconciler.eventKey event), ("source", "reconciler")]⟩ := ⟨_, rfl⟩
  have entries : Reconciler.entries 0 [event] = .ok [entry] := by
    rw [Reconciler.entries, dumped, carried]
    rfl
  obtain ⟨m, taken⟩ : ∃ m : Message, m = ⟨"m-1", entry.body, entry.attributes, 0⟩ := ⟨_, rfl⟩
  obtain ⟨w₁, sent⟩ : ∃ w₁ : World, w₁ = { w with sqs := Sqs.State.empty.push .main m } := ⟨_, rfl⟩
  have sends : S.Answers (.sendMessageBatch .main [entry]) w (.ok ⟨[entry.id], []⟩) w₁ := by
    refine ⟨Sqs.State.empty.push .main m, ⟨[entry], List.Sublist.refl _, ?_, ?_⟩, sent⟩
    · rw [noMessages]
      exact .cons ⟨m, by rw [taken], by rw [taken], fun ⟨_, mem, _⟩ => (nomatch mem), rfl⟩ .nil
    · rintro out ⟨⟩
      exact ⟨rfl, rfl⟩
  refine ⟨m, by rw [taken, carried], ?_⟩
  rw [← sent, show Data.batches 10 [event] = [[event]] from rfl, Reconciler.enqueueBatches, entries]
  exact .call moves ⟨sends, trivial⟩ .ret

/-- The client finds its parameters. -/
theorem salesforce_configured (rt : Runtime) (paramPrefix : String) {since : Int} (w : World) :
    Exec (Clocked S since) env (Reconciler.salesforce rt paramPrefix) w (.ok ()) w := by
  have named : Reconciler.missingParameters (Reconciler.parameterNames paramPrefix)
      ((Reconciler.parameterNames paramPrefix).map fun name => (name, "")) = [] := by
    simp only [Reconciler.missingParameters, List.filter_eq_nil_iff, List.map_map, decide_eq_true_eq,
      not_not]
    exact fun name mem => List.mem_map_of_mem mem
  have names : S.Answers (.getParameters (Reconciler.parameterNames paramPrefix)) w
      (.ok ((Reconciler.parameterNames paramPrefix).map fun name => (name, ""))) w := rfl
  unfold Reconciler.salesforce
  refine .call .refl ⟨names, trivial⟩ ?_
  simp only [Prog.bind, named]
  exact .ret

/-- A nightly run that re-enqueues one event. -/
theorem handler_one {rt : Runtime} {w w₁ w₂ : World} {now : Int} {report : Reconciler.Report}
    {event : List (String × Obj)}
    (reconciled : Exec (Clocked S now) env (Reconciler.reconcile rt 1 now (Reconciler.minutes 0)) w
      (some (.ok report)) w₁) (one : report.toEnqueue = [event])
    (enqueued : Exec (Clocked S now) env (Reconciler.enqueueBatches 0 (Data.batches 10 [event])) w₁ (.ok 1)
      w₂) :
    Exec (Clocked S now) env (Reconciler.handler rt ⟨"/relay", 0⟩ 1 ⟨none, false⟩) w
      (some (.ok ⟨report, 1, false⟩)) w₂ := by
  have clock : S.Answers .utcNow w now w := rfl
  unfold Reconciler.handler
  refine (salesforce_configured rt _ _).bind (.call .refl ⟨clock, le_refl now⟩ (reconciled.bind ?_))
  simp only [one]
  exact enqueued.bind .ret

/-- The row of the deal as the reconciler loads it. -/
def loadedRenewal : Row PyNum := (renewalFor 7000).row.withAmount (some (.int 7000))

/-- The event of the deal and its text are mapped. -/
theorem message_renewal {rt : Runtime} (deep : 2 ≤ rt.depth) (now : Int) : ∃ order body,
    toOrder rt (Reconciler.eventOf loadedRenewal 1000000 now) = .ok order ∧
      dumpsText (.obj (Reconciler.eventOf loadedRenewal 1000000 now)) = .ok body ∧
      orderOf rt body = .ok order := by
  obtain ⟨order, mapped⟩ : ∃ order, toOrder rt (Reconciler.eventOf loadedRenewal 1000000 now) = .ok order :=
    Reconciler.mapped_iff.mpr mappable_renewalFor
  have inRange : InRange 1000000 := (Reconciler.parseModstamp_wireText (stamp_renewalFor 7000)).2
  have message := @Reconciler.orderOf_message rt deep loadedRenewal
    (Reconciler.loadedRow_of_loadRow load_renewalFor) 1000000 inRange now
  rw [mapped, Reconciler.orderOfEvent] at message
  split at message
  · cases message
  · exact ⟨order, _, mapped, by assumption, message⟩

/-- A nightly run on empty tables re-enqueues the only deal. -/
theorem reenqueued_exec {rt : Runtime} (deep : 2 ≤ rt.depth) {now : Int} (late : 1000000 ≤ now) :
    ∃ summary w', Exec (Clocked S now) env
        (Reconciler.handler rt ⟨"/relay", 0⟩ 1 ⟨none, false⟩)
        { World.empty with org := [renewalFor 7000] } (some (.ok summary)) w' ∧
      summary.reenqueued = summary.report.toEnqueue.length ∧ summary.reenqueued = 1 ∧
      (w'.sqs.queue .main).length = 1 ∧ ∀ m ∈ w'.sqs.queue .main, Readable rt m.body := by
  have parsed : Reconciler.parseModstamp loadedRenewal.systemModstamp = .ok 1000000 := stamp_renewalFor 7000
  obtain ⟨order, body, mapped, dumped, read⟩ := message_renewal deep now
  have out : 1000000 ≤ now - Reconciler.minutes 0 := by
    rw [Reconciler.minutes]
    omega
  obtain ⟨report, compared, one⟩ := compare_one parsed out mapped
  have reconciled := @reconcile_one S env rt _ { World.empty with org := [renewalFor 7000] } _ _ _ _ now _ _
    (untimed_clocked S now) rfl rfl load_renewalFor (scan_nothing rfl) compared
  obtain ⟨m, same, enqueued⟩ := @enqueueBatches_one S env _
    { World.empty with org := [renewalFor 7000], reads := [(.won, [renewalFor 7000])] } _ _ now .refl rfl dumped
  refine ⟨⟨report, 1, false⟩, _, handler_one reconciled one enqueued, by rw [one]; rfl, rfl, rfl,
    fun m' mem => ?_⟩
  obtain rfl := List.mem_singleton.mp mem
  refine (permanent_orderOf_iff _ _).mp ?_
  rw [same, read]
  exact permanent_ok order

end Renewal

/-- A deal that was never polled, after a nightly run and one drain. -/
theorem repaired_by_reconcile_renewal : ∃ w, Recovered ⟨fun _ => true, 1000⟩ w (renewalFor 7000) 1000000 := by
  obtain ⟨summary, w₁, run, all, -, one, readable⟩ := @reenqueued_exec ⟨fun _ => 0⟩
    (Meanwhile ⟨fun _ => true, 1000⟩ fun _ => True) ⟨fun _ => true, 1000⟩ (by decide) 2000000 (by decide)
  obtain ⟨⟨w₂, drain⟩, ends⟩ := @repaired_by_reconcile ⟨fun _ => 0⟩ ⟨fun _ => true, 1000⟩ standard
    ⟨"/relay", 0⟩ { World.empty with org := [renewalFor 7000] } w₁
    (Pool.idle { World.empty with org := [renewalFor 7000] }) (fun _ => True) 2000000 1 ⟨none, false⟩
    summary (by decide) rfl rfl .refl rfl run all readable 1 (le_of_eq one)
  exact ⟨w₂, ends w₂ drain _ trivial List.mem_cons_self rfl _ _ load_renewalFor (stamp_renewalFor 7000)
    (by decide) mappable_renewalFor⟩

end Relay.Delivery
