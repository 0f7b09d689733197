import Relay.Worker.Parts

/-!
Records of one batch do not disturb each other.

A `Script` fixes what happens to each record of a batch: the clock, the random
draws, the time that is left, and how each call to the ERP and to the queues
fails, if it does. Where no failure is scripted, the ERP decides a write by its
conditions. `records_isolated` compares two runs of the handler over batches that
differ in one body, under scripts that agree on every other record.
-/

namespace Relay.Worker

open Relay.Effect Relay.Platform Relay.Python Relay.Erp Relay.Dynamo Relation

/-! ### What happens to a record -/

structure Fate where
  /-- The time left when its turn comes. -/
  remaining : Option Int
  draws : Nat → ℚ
  clock : Nat → Int
  /-- How the write fails, and whether it takes effect all the same. -/
  write : Option (Fault × Bool)
  /-- Whether a failed condition comes with the stored item. -/
  returns : Bool
  read : Option Fault
  park : Except String Unit
  delay : Except String Unit

structure Script where
  parameters : Except String (List (String × String))
  fates : Nat → Fate

/-- A world on the way through a script. -/
structure Scene where
  world : World
  /-- The records whose turn has come. -/
  begun : Nat
  /-- The fate of the last of them, and how much of it is used up. -/
  fate : Fate
  drawn : Nat
  told : Nat

/-- Why an update cancels its transaction, or `None`. -/
def reason (returns : Bool) (db : Db Table) (u : Update Table) : CancellationReason :=
  if u.conditionHolds (db u.table u.key) then
    match u.apply (db u.table u.key) with
    | some _ => ⟨some "None", none⟩
    | none => ⟨some "ValidationError", none⟩
  else ⟨some "ConditionalCheckFailed", if returns then db u.table u.key else none⟩

/-- The answer to a transaction that cannot be committed. -/
def cancellation (returns : Bool) (items : List (Update Table)) (db : Db Table) : ErrorResponse :=
  ⟨some "TransactionCanceledException", none, items.map (reason returns db)⟩

/-- The ERP after a transaction, if it can be committed. -/
def attempt (items : List (Update Table)) (erp : Dynamo.State Table) : Dynamo.State Table :=
  match erp.db.transact items with
  | some db => ⟨db, erp.log ++ [items]⟩
  | none => erp

/-- The answer to a transaction and the ERP after it. -/
def Fate.writes (fate : Fate) (items : List (Update Table)) (erp : Dynamo.State Table) :
    Except Fault Unit × Dynamo.State Table :=
  match fate.write with
  | some (fault, applied) => (.error fault, if applied then attempt items erp else erp)
  | none =>
      match erp.db.transact items with
      | some _ => (.ok (), attempt items erp)
      | none => (.error (.client (cancellation fate.returns items erp.db)), erp)

def Fate.reads (fate : Fate) (table : Table) (key : String) (erp : Dynamo.State Table) :
    Except Fault (Option Item) :=
  match fate.read with
  | some fault => .error fault
  | none => .ok (erp.db table key)

/-- What a script says of a call's answer. -/
def Script.Determines (script : Script) : (request : Request) → Scene → request.Answer → Scene → Prop
  | .getParameters _, s, reply, s' => reply = script.parameters ∧ s' = { s with world := s'.world }
  | .remainingTime, s, reply, s' =>
      reply = (script.fates s.begun).remaining ∧ s' = ⟨s'.world, s.begun + 1, script.fates s.begun, 0, 0⟩
  | .random, s, reply, s' =>
      reply = s.fate.draws s.drawn ∧ s' = { s with world := s'.world, drawn := s.drawn + 1 }
  | .utcNow, s, reply, s' =>
      reply = s.fate.clock s.told ∧ s' = { s with world := s'.world, told := s.told + 1 }
  | .transactWriteItems items, s, reply, s' =>
      (reply, s'.world.erp) = s.fate.writes items s.world.erp ∧ s' = { s with world := s'.world }
  | .getItem table key, s, reply, s' =>
      reply = s.fate.reads table key s.world.erp ∧ s' = { s with world := s'.world }
  | .sendMessage _ _ _, s, reply, s' => reply = s.fate.park ∧ s' = { s with world := s'.world }
  | .changeMessageVisibility _ _ _, s, reply, s' =>
      reply = s.fate.delay ∧ s' = { s with world := s'.world }
  | _, s, _, s' => s' = { s with world := s'.world }

/-- The answers of the services that follow a script. -/
def Script.Answers (S : Services) (script : Script) (request : Request) (s : Scene)
    (reply : request.Answer) (s' : Scene) : Prop :=
  S.Answers request s.world reply s'.world ∧ script.Determines request s reply s'

/-! ### One transaction on two tables -/

/-- The order and the invoice of a deal. -/
def rows (db : Db Table) (deal : String) : Option Item × Option Item :=
  (db .orders deal, db .invoices (invoiceIdFor deal))

/-- A commit on two databases with the same rows of its deal leaves the same rows. -/
theorem rows_of_committed {order : Order} {now : String} {db₁ db₁' db₂ db₂' : Db Table}
    (same : rows db₂ order.orderId = rows db₁ order.orderId)
    (first : db₁.transact (transaction order now) = some db₁')
    (second : db₂.transact (transaction order now) = some db₂') :
    rows db₂' order.orderId = rows db₁' order.orderId := by
  have orders : db₂ .orders order.orderId = db₁ .orders order.orderId := congrArg Prod.fst same
  have invoices : db₂ .invoices (invoiceIdFor order.orderId) = db₁ .invoices (invoiceIdFor order.orderId) :=
    congrArg Prod.snd same
  have order_ : orderUpdate order now ∈ transaction order now := by simp [transaction]
  have invoice_ : invoiceUpdate order now ∈ transaction order now := by simp [transaction]
  have ordered := (Db.transact_target first order_).1
  have ordered' := (Db.transact_target second order_).1
  have invoiced := (Db.transact_target first invoice_).1
  have invoiced' := (Db.transact_target second invoice_).1
  simp only [orderUpdate, invoiceUpdate] at ordered ordered' invoiced invoiced'
  rw [orders, ordered] at ordered'
  rw [invoices, invoiced] at invoiced'
  exact Prod.ext ordered'.symm invoiced'.symm

/-- A commit leaves the rows of the other deals. -/
theorem rows_frame {order : Order} {now deal : String} {db db' : Db Table} (other : deal ≠ order.orderId)
    (committed : db.transact (transaction order now) = some db') : rows db' deal = rows db deal := by
  have apart : ∀ u ∈ transaction order now, u.target ≠ (Table.orders, deal) ∧
      u.target ≠ (Table.invoices, invoiceIdFor deal) := by
    intro u mem
    have invoice : invoiceIdFor order.orderId ≠ invoiceIdFor deal := fun same =>
      other (invoiceIdFor_injective same).symm
    simp only [transaction, List.mem_cons, List.not_mem_nil, or_false] at mem
    rcases mem with rfl | rfl | rfl
    · simp [Update.target, orderUpdate, Ne.symm other]
    · simp [Update.target, invoiceUpdate, invoice]
    · simp [Update.target, customerUpdate]
  rw [rows, rows, Db.transact_frame committed fun u mem => (apart u mem).1,
    Db.transact_frame committed fun u mem => (apart u mem).2]

/-! ### Two scenes that are alike -/

/-- The same fate, with perhaps another time left. -/
def SameFate (fate fate' : Fate) : Prop := ∃ remaining, fate' = { fate with remaining := remaining }

theorem SameFate.symm {fate fate' : Fate} (same : SameFate fate fate') : SameFate fate' fate := by
  obtain ⟨remaining, rfl⟩ := same
  exact ⟨fate.remaining, rfl⟩

/-- Two scenes at the same place of the same fate that agree on some deals. -/
structure Alike (deals : String → Prop) (s s' : Scene) : Prop where
  fate : SameFate s.fate s'.fate
  drawn : s'.drawn = s.drawn
  told : s'.told = s.told
  rows : ∀ deal, deals deal → rows s'.world.erp.db deal = rows s.world.erp.db deal

section Writes

variable {order : Order} {now : String}

theorem transact_alike {db db' : Db Table} (same : rows db' order.orderId = rows db order.orderId) :
    (db'.transact (transaction order now)).isSome = (db.transact (transaction order now)).isSome := by
  have orders : db' .orders order.orderId = db .orders order.orderId := congrArg Prod.fst same
  rw [Bool.eq_iff_iff, transact_isSome_iff, transact_isSome_iff, orders]

theorem attempt_alike {erp erp' : Dynamo.State Table}
    (same : rows erp'.db order.orderId = rows erp.db order.orderId) {deal : String}
    (agree : rows erp'.db deal = rows erp.db deal) :
    rows (attempt (transaction order now) erp').db deal = rows (attempt (transaction order now) erp).db deal := by
  have both := @transact_alike order now _ _ same
  unfold attempt
  cases first : erp.db.transact (transaction order now) with
  | none =>
      rw [first] at both
      rw [Option.isSome_eq_false_iff.mp both |> Option.isNone_iff_eq_none.mp]
      exact agree
  | some db =>
      rw [first] at both
      obtain ⟨db', second⟩ := Option.isSome_iff_exists.mp both
      rw [second]
      by_cases own : deal = order.orderId
      · rw [own]
        exact rows_of_committed same first second
      · exact (rows_frame own second).trans (agree.trans (rows_frame own first).symm)

theorem cancellation_alike {db db' : Db Table} (returns : Bool)
    (same : rows db' order.orderId = rows db order.orderId) :
    cancellation returns (transaction order now) db' = cancellation returns (transaction order now) db := by
  have orders : db' .orders order.orderId = db .orders order.orderId := congrArg Prod.fst same
  have unconditional : ∀ u : Update Table, u.condition = none →
      (∀ old, (u.apply old).isSome = true) → ∀ db : Db Table, reason returns db u = ⟨some "None", none⟩ := by
    intro u free defined db
    obtain ⟨item, applied⟩ := Option.isSome_iff_exists.mp (defined (db u.table u.key))
    simp only [reason, Update.conditionHolds, free, if_true, applied]
  have own : reason returns db' (orderUpdate order now) = reason returns db (orderUpdate order now) := by
    have target : ∀ db : Db Table, db (orderUpdate order now).table (orderUpdate order now).key =
        db .orders order.orderId := fun _ => rfl
    simp only [reason, target, orders]
  simp only [cancellation, transaction, List.map_cons, List.map_nil, own,
    unconditional _ rfl (invoiceUpdate_isSome order now),
    unconditional _ rfl (customerUpdate_isSome order now)]

/-- A write in two worlds with the same order is answered alike. -/
theorem writes_alike {fate fate' : Fate} (fates : SameFate fate fate') {erp erp' : Dynamo.State Table}
    (same : rows erp'.db order.orderId = rows erp.db order.orderId) :
    (fate'.writes (transaction order now) erp').1 = (fate.writes (transaction order now) erp).1 ∧
      ∀ deal, rows erp'.db deal = rows erp.db deal →
        rows (fate'.writes (transaction order now) erp').2.db deal =
          rows (fate.writes (transaction order now) erp).2.db deal := by
  obtain ⟨remaining, rfl⟩ := fates
  unfold Fate.writes
  cases scripted : fate.write with
  | some failure =>
      obtain ⟨fault, applied⟩ := failure
      refine ⟨rfl, fun deal agree => ?_⟩
      cases applied with
      | true => exact attempt_alike same agree
      | false => exact agree
  | none =>
      have both := @transact_alike order now _ _ same
      cases first : erp.db.transact (transaction order now) with
      | none =>
          rw [first] at both
          have second := Option.isNone_iff_eq_none.mp (Option.isSome_eq_false_iff.mp both)
          simp only [second]
          exact ⟨by rw [cancellation_alike fate.returns same], fun deal agree => agree⟩
      | some db =>
          rw [first] at both
          obtain ⟨db', second⟩ := Option.isSome_iff_exists.mp both
          simp only [second]
          exact ⟨trivial, fun deal agree => attempt_alike same agree⟩

end Writes

/-- A call of one record is answered alike in scenes that agree on its deals. -/
theorem answers_alike {S : Services} {script script' : Script} {mine : Order → Prop} {deals : String → Prop}
    (own : ∀ order, mine order → deals order.orderId) {request : Request} {s s' t t' : Scene}
    {reply reply' : request.Answer} (handles : Handles mine request) (alike : Alike deals s s')
    (answered : script.Answers S request s reply t) (answered' : script'.Answers S request s' reply' t') :
    reply' = reply ∧ Alike deals t t' := by
  obtain ⟨seen, determined⟩ := answered
  obtain ⟨seen', determined'⟩ := answered'
  obtain ⟨fates, drawn, told, agree⟩ := alike
  -- A call that leaves the ERP alone leaves the scenes alike.
  have stays : t.world.erp = s.world.erp → t'.world.erp = s'.world.erp → ∀ deal, deals deal →
      rows t'.world.erp.db deal = rows t.world.erp.db deal := by
    intro still still' deal mem
    rw [still, still']
    exact agree deal mem
  cases request with
  | transactWriteItems items =>
      obtain ⟨order, now, mine_, rfl⟩ := handles.resolve_right id
      obtain ⟨outcome, moved⟩ := determined
      obtain ⟨outcome', moved'⟩ := determined'
      obtain ⟨answer, after⟩ := @writes_alike order now _ _ fates _ _ (agree _ (own order mine_))
      rw [← outcome, ← outcome'] at answer after
      refine ⟨answer, ?_⟩
      rw [moved, moved']
      exact ⟨fates, drawn, told, fun deal mem => after deal (agree deal mem)⟩
  | getItem table key =>
      obtain ⟨order, mine_, rfl, rfl⟩ := handles.resolve_right id
      obtain ⟨answer, moved⟩ := determined
      obtain ⟨answer', moved'⟩ := determined'
      have orders : s'.world.erp.db .orders order.orderId = s.world.erp.db .orders order.orderId :=
        congrArg Prod.fst (agree _ (own order mine_))
      have same : reply' = reply := by
        obtain ⟨remaining, changed⟩ := fates
        rw [answer, answer', changed]
        simp only [Fate.reads, orders]
      rw [moved, moved']
      exact ⟨same, fates, drawn, told, stays (congrArg World.erp seen.1) (congrArg World.erp seen'.1)⟩
  | sendMessage queue body attributes =>
      obtain ⟨answer, moved⟩ := determined
      obtain ⟨answer', moved'⟩ := determined'
      obtain ⟨sqs, -, world⟩ := seen
      obtain ⟨sqs', -, world'⟩ := seen'
      have same : reply' = reply := by
        obtain ⟨remaining, changed⟩ := fates
        rw [answer, answer', changed]
      rw [moved, moved']
      exact ⟨same, fates, drawn, told, stays (by rw [world]) (by rw [world'])⟩
  | changeMessageVisibility queue receipt seconds =>
      obtain ⟨answer, moved⟩ := determined
      obtain ⟨answer', moved'⟩ := determined'
      have same : reply' = reply := by
        obtain ⟨remaining, changed⟩ := fates
        rw [answer, answer', changed]
      rw [moved, moved']
      exact ⟨same, fates, drawn, told, stays (congrArg World.erp seen) (congrArg World.erp seen')⟩
  | utcNow =>
      obtain ⟨answer, moved⟩ := determined
      obtain ⟨answer', moved'⟩ := determined'
      have same : reply' = reply := by
        obtain ⟨remaining, changed⟩ := fates
        rw [answer, answer', changed, told]
      rw [moved, moved']
      exact ⟨same, fates, drawn, congrArg (· + 1) told,
        stays (congrArg World.erp seen) (congrArg World.erp seen')⟩
  | random =>
      obtain ⟨answer, moved⟩ := determined
      obtain ⟨answer', moved'⟩ := determined'
      have same : reply' = reply := by
        obtain ⟨remaining, changed⟩ := fates
        rw [answer, answer', changed, drawn]
      rw [moved, moved']
      exact ⟨same, fates, congrArg (· + 1) drawn, told,
        stays (congrArg World.erp seen.1) (congrArg World.erp seen'.1)⟩
  | _ => rcases handles with handles | handles <;> exact handles.elim

/-! ### Two batches -/

/-- The body maps to an order of this deal. -/
def Concerns (rt : Runtime) (body deal : String) : Prop :=
  ∃ order, orderOf rt body = .ok order ∧ order.orderId = deal

/-- There is time for this record when its turn comes. -/
def Enough (settings : Settings) (script : Script) (i : Nat) : Prop :=
  ∀ remaining ∈ (script.fates i).remaining, settings.timeGuardMs ≤ remaining

/-- The record is started before the time limit. -/
def InTime (settings : Settings) (script : Script) (i : Nat) : Prop :=
  ∀ k ≤ i, Enough settings script k

section Batches

variable {S : Services} {rt : Runtime} {settings : Settings} {chaos : Chaos} {script script' : Script}

theorem asked_script {s t : Scene} {calls : List (Exchange Request.Answer)} {out : Bool}
    (run : Traced (script.Answers S) Alone (outOfTime settings) s calls out t) :
    t = ⟨s.world, s.begun + 1, script.fates s.begun, 0, 0⟩ ∧
      (out = false ↔ Enough settings script s.begun) := by
  obtain ⟨s₁, remaining, s₂, later, -, moves, ⟨seen, answer, moved⟩, run⟩ := Traced.of_perform_bind run
  obtain rfl := eq_of_alone moves
  have world : s₂.world = s₁.world := seen
  rw [world] at moved
  cases remaining with
  | none =>
      obtain ⟨-, rfl, rfl⟩ := Traced.of_ret run
      refine ⟨moved, fun _ remaining mem => ?_, fun _ => rfl⟩
      rw [← answer] at mem
      cases mem
  | some remaining =>
      obtain ⟨-, rfl, rfl⟩ := Traced.of_ret run
      refine ⟨moved, ?_⟩
      rw [decide_eq_false_iff_not, Int.not_lt, Enough, ← answer]
      simp

/-- The records before this one have nothing to do with a deal that it leaves alone. -/
theorem handled_frame {record : Record} {s t : Scene} {calls : List (Exchange Request.Answer)}
    {result : Except Exn Outcome} {deal : String} (apart : ¬ Concerns rt record.body deal)
    (run : Traced (script.Answers S) Alone (handleRecord rt settings record chaos) s calls result t) :
    rows t.world.erp.db deal = rows s.world.erp.db deal := by
  refine Traced.along (fun s t : Scene => rows t.world.erp.db deal = rows s.world.erp.db deal)
    (fun _ => rfl) (fun first second => second.trans first) (fun _ _ => False.elim) ?_
    (handles_handleRecord rt settings record chaos) run
  intro request s reply t handles answered
  rcases handles_erp handles answered.1 with same | ⟨order, now, mine, committed⟩
  · rw [same]
  · apply rows_frame _ committed.1
    rintro rfl
    exact apart ⟨order, mine, rfl⟩

/-- The place in the script moves on only with the next record. -/
theorem handled_begun {record : Record} {s t : Scene} {calls : List (Exchange Request.Answer)}
    {result : Except Exn Outcome}
    (run : Traced (script.Answers S) Alone (handleRecord rt settings record chaos) s calls result t) :
    t.begun = s.begun := by
  refine Traced.along (fun s t : Scene => t.begun = s.begun) (fun _ => rfl)
    (fun first second => second.trans first) (fun _ _ => False.elim) ?_
    (handles_handleRecord rt settings record chaos) run
  intro request s reply t handles answered
  obtain ⟨-, determined⟩ := answered
  cases request with
  | remainingTime => rcases handles with handles | handles <;> exact handles.elim
  | transactWriteItems items => rw [determined.2]
  | getItem table key => rw [determined.2]
  | sendMessage queue body attributes => rw [determined.2]
  | changeMessageVisibility queue receipt seconds => rw [determined.2]
  | utcNow => rw [determined.2]
  | random => rw [determined.2]
  | _ => rcases handles with handles | handles <;> exact handles.elim

/-- One record under one fate ends alike where its own deal is alike. -/
theorem handled_alike {record : Record} {s s' t t' : Scene} {calls calls' : List (Exchange Request.Answer)}
    {result result' : Except Exn Outcome} (alike : Alike (Concerns rt record.body) s s')
    (run : Traced (script.Answers S) Alone (handleRecord rt settings record chaos) s calls result t)
    (run' : Traced (script'.Answers S) Alone (handleRecord rt settings record chaos) s' calls' result' t') :
    result' = result ∧ Alike (Concerns rt record.body) t t' := by
  have own : ∀ order, orderOf rt record.body = .ok order → Concerns rt record.body order.orderId :=
    fun order mapped => ⟨order, mapped, rfl⟩
  obtain ⟨-, same, ends⟩ := Traced.lockstep (Alike (Concerns rt record.body))
    (fun _ _ _ _ _ _ _ handles alike answered answered' => answers_alike own handles alike answered answered')
    (handles_handleRecord rt settings record chaos) alike run run'
  exact ⟨same, ends⟩

variable (rt script script') in
/-- One record under one fate, or two that leave a deal alone. -/
def Similar (deal : String) (i : Nat) (record record' : Record) : Prop :=
  (record' = record ∧ SameFate (script.fates i) (script'.fates i)) ∨
    (¬ Concerns rt record.body deal ∧ ¬ Concerns rt record'.body deal)

variable (rt script script') in
/-- The records of two batches from the `n`-th on are similar one by one. -/
def SimilarFrom (deal : String) : Nat → List Record → List Record → Prop
  | _, [], [] => True
  | n, record :: rest, record' :: rest' =>
      Similar rt script script' deal n record record' ∧ SimilarFrom deal (n + 1) rest rest'
  | _, _, _ => False

/-- The scene in which the `n`-th record is handled. -/
def turn (script : Script) (n : Nat) (world : World) : Scene := ⟨world, n + 1, script.fates n, 0, 0⟩

theorem similar_step {deal : String} {n : Nat} {record record' : Record} {w w' : World} {t t' : Scene}
    {calls calls' : List (Exchange Request.Answer)} {result result' : Except Exn Outcome}
    (similar : Similar rt script script' deal n record record')
    (agree : rows w'.erp.db deal = rows w.erp.db deal)
    (run : Traced (script.Answers S) Alone (handleRecord rt settings record chaos) (turn script n w)
      calls result t)
    (run' : Traced (script'.Answers S) Alone (handleRecord rt settings record' chaos) (turn script' n w')
      calls' result' t') :
    rows t'.world.erp.db deal = rows t.world.erp.db deal := by
  by_cases concerned : Concerns rt record.body deal
  · obtain ⟨rfl, fates⟩ | ⟨apart, -⟩ := similar
    · have only : ∀ other, Concerns rt record'.body other → other = deal := by
        rintro other ⟨order, mapped, rfl⟩
        obtain ⟨order', mapped', rfl⟩ := concerned
        rw [mapped] at mapped'
        rw [Except.ok.inj mapped']
      have alike : Alike (Concerns rt record'.body) (turn script n w) (turn script' n w') :=
        ⟨fates, rfl, rfl, fun other mem => by rw [only other mem]; exact agree⟩
      exact (handled_alike alike run run').2.rows deal concerned
    · exact absurd concerned apart
  · have apart : ¬ Concerns rt record'.body deal := by
      obtain ⟨rfl, -⟩ | ⟨-, apart⟩ := similar
      · exact concerned
      · exact apart
    rw [handled_frame apart run', handled_frame concerned run]
    exact agree

/-- What it means that the `n`-th record is started. -/
theorem started_turn {n : Nat} {s : Scene} {part : Part Scene} {asked : List (Exchange Request.Answer)}
    (place : s.begun = n) (before : ∀ k < n, Enough settings script k)
    (asks : Traced (script.Answers S) Alone (outOfTime settings) s asked false part.before)
    (handles : Traced (script.Answers S) Alone (handleRecord rt settings part.record chaos) part.before
      part.calls (.ok part.outcome) part.after) :
    part.before = turn script n s.world ∧ InTime settings script n ∧ part.after.begun = n + 1 := by
  obtain ⟨turn_, enough⟩ := asked_script asks
  rw [place] at turn_ enough
  refine ⟨turn_, ?_, by rw [handled_begun handles, turn_]⟩
  intro k le
  rcases le.lt_or_eq with lt | rfl
  · exact before k lt
  · exact enough.mp rfl

/-- Started records that leave a deal alone leave its rows. -/
theorem divides_frame {deal : String} {n : Nat} {s t : Scene} {records left : List Record}
    {parts : List (Part Scene)} {calls : List (Exchange Request.Answer)}
    (divides : Divides (script.Answers S) Alone rt settings chaos n s records parts left calls t)
    (place : s.begun = n) (before : ∀ k < n, Enough settings script k)
    (late : ∀ (i : Nat) (record : Record), records[i]? = some record → Concerns rt record.body deal →
      ¬ InTime settings script (n + i)) :
    rows t.world.erp.db deal = rows s.world.erp.db deal := by
  induction divides with
  | finished => rfl
  | outOfTime asks => rw [(asked_script asks).1]
  | @started n s t part rest left parts asked later asks handles crash _ ih =>
      obtain ⟨turn_, inTime, begun⟩ := started_turn place before asks handles
      have apart : ¬ Concerns rt part.record.body deal := fun concerned =>
        late 0 part.record rfl concerned inTime
      rw [ih begun (fun k lt => inTime k (by omega)) fun i record here concerned => by
        have := late (i + 1) record here concerned
        rwa [← Nat.add_assoc, Nat.add_right_comm] at this]
      rw [handled_frame apart handles, turn_, turn]

theorem SimilarFrom.get {deal : String} {n i : Nat} {records records' : List Record} {record' : Record}
    (similar : SimilarFrom rt script script' deal n records records') (here : records'[i]? = some record') :
    ∃ record, records[i]? = some record ∧ Similar rt script script' deal (n + i) record record' := by
  induction records generalizing n i records' with
  | nil =>
      cases records' with
      | nil => cases here
      | cons _ _ => exact similar.elim
  | cons first rest ih =>
      cases records' with
      | nil => exact similar.elim
      | cons first' rest' =>
          cases i with
          | zero =>
              obtain rfl := Option.some.inj here
              exact ⟨first, rfl, similar.1⟩
          | succ i =>
              obtain ⟨record, there, like⟩ := ih similar.2 here
              refine ⟨record, there, ?_⟩
              rwa [Nat.add_right_comm, Nat.add_assoc] at like

theorem SimilarFrom.symm {deal : String} {n : Nat} {records records' : List Record}
    (similar : SimilarFrom rt script script' deal n records records') :
    SimilarFrom rt script' script deal n records' records := by
  induction records generalizing n records' with
  | nil =>
      cases records' with
      | nil => trivial
      | cons _ _ => exact similar.elim
  | cons first rest ih =>
      cases records' with
      | nil => exact similar.elim
      | cons first' rest' =>
          refine ⟨?_, ih similar.2⟩
          rcases similar.1 with ⟨rfl, fates⟩ | ⟨apart, apart'⟩
          · exact .inl ⟨rfl, fates.symm⟩
          · exact .inr ⟨apart', apart⟩

/-- The records of a deal are started in both runs or in neither. -/
def Together (rt : Runtime) (settings : Settings) (script script' : Script) (deal : String) (n : Nat)
    (records : List Record) : Prop :=
  ∀ (i : Nat) (record : Record), records[i]? = some record → Concerns rt record.body deal →
    (InTime settings script (n + i) ↔ InTime settings script' (n + i))

/-- Where one run is out of time, the other one starts no record of the deal any more. -/
theorem late_of_similar {deal : String} {n : Nat} {records records' : List Record}
    (similar : SimilarFrom rt script script' deal n records records')
    (together : Together rt settings script script' deal n records) (out : ¬ Enough settings script n) :
    ∀ (i : Nat) (record : Record), records'[i]? = some record → Concerns rt record.body deal →
      ¬ InTime settings script' (n + i) := by
  intro i record' here concerned inTime
  obtain ⟨record, there, like⟩ := similar.get here
  obtain ⟨rfl, -⟩ | ⟨-, apart⟩ := like
  · exact out ((together i record' there concerned).mpr inTime n (by omega))
  · exact apart concerned

theorem Together.symm {deal : String} {n : Nat} {records records' : List Record}
    (similar : SimilarFrom rt script script' deal n records records')
    (together : Together rt settings script script' deal n records) :
    Together rt settings script' script deal n records' := by
  intro i record' here concerned
  obtain ⟨record, there, like⟩ := similar.get here
  obtain ⟨rfl, -⟩ | ⟨-, apart⟩ := like
  · exact (together i record' there concerned).symm
  · exact absurd concerned apart

/-- Two runs leave the same rows of a deal whose records are the same in both. -/
theorem rows_at_end {deal : String} {n : Nat} {s s' t t' : Scene} {records records' left left' : List Record}
    {parts parts' : List (Part Scene)} {calls calls' : List (Exchange Request.Answer)}
    (divides : Divides (script.Answers S) Alone rt settings chaos n s records parts left calls t)
    (divides' : Divides (script'.Answers S) Alone rt settings chaos n s' records' parts' left' calls' t')
    (similar : SimilarFrom rt script script' deal n records records')
    (together : Together rt settings script script' deal n records)
    (place : s.begun = n) (place' : s'.begun = n) (before : ∀ k < n, Enough settings script k)
    (before' : ∀ k < n, Enough settings script' k)
    (agree : rows s'.world.erp.db deal = rows s.world.erp.db deal) :
    rows t'.world.erp.db deal = rows t.world.erp.db deal := by
  induction divides generalizing s' records' parts' calls' with
  | finished =>
      cases records' with
      | nil =>
          cases divides'
          exact agree
      | cons _ _ => exact similar.elim
  | @outOfTime n s t record rest calls asks =>
      obtain ⟨turn_, enough⟩ := asked_script asks
      have out : ¬ Enough settings script n := fun more => by
        have := enough.mpr (by rwa [place])
        cases this
      rw [divides_frame divides' place' before' (late_of_similar similar together out), turn_]
      exact agree
  | @started n s t part rest left parts asked later asks handles crash remains ih =>
      have whole := Divides.started asks handles crash remains
      obtain ⟨turn_, inTime, begun⟩ := started_turn place before asks handles
      cases records' with
      | nil => exact similar.elim
      | cons record' rest' =>
          cases divides' with
          | outOfTime asks' =>
              obtain ⟨turn_', enough'⟩ := asked_script asks'
              have out : ¬ Enough settings script' n := fun more => by
                have := enough'.mpr (by rwa [place'])
                cases this
              rw [divides_frame whole place before
                (late_of_similar similar.symm (together.symm similar) out), turn_']
              exact agree
          | started asks' handles' crash' remains' =>
              obtain ⟨turn_', inTime', begun'⟩ := started_turn place' before' asks' handles'
              have rest_ : Together rt settings script script' deal (n + 1) rest := by
                intro i record here concerned
                have := together (i + 1) record here concerned
                rwa [← Nat.add_assoc, Nat.add_right_comm] at this
              rw [turn_] at handles
              rw [turn_'] at handles'
              exact ih remains' similar.2 rest_ begun begun' (fun k lt => inTime k (by omega))
                (fun k lt => inTime' k (by omega)) (similar_step similar.1 agree handles handles')

/-- A record that is started in time has its part. -/
theorem part_of_inTime {n i : Nat} {s t : Scene} {records left : List Record} {parts : List (Part Scene)}
    {calls : List (Exchange Request.Answer)} {record : Record}
    (divides : Divides (script.Answers S) Alone rt settings chaos n s records parts left calls t)
    (place : s.begun = n) (here : records[i]? = some record) (inTime : InTime settings script (n + i)) :
    ∃ part, parts[i]? = some part ∧ part.record = record := by
  induction divides generalizing i with
  | finished => cases here
  | @outOfTime n s t record rest calls asks =>
      have more := (asked_script asks).2.mpr (by rw [place]; exact inTime n (by omega))
      cases more
  | @started n s t part rest left parts asked later asks handles crash _ ih =>
      cases i with
      | zero => exact ⟨part, rfl, Option.some.inj here⟩
      | succ i =>
          have begun : part.after.begun = n + 1 := by
            rw [handled_begun handles, (asked_script asks).1, place]
          refine ih begun here ?_
          rwa [Nat.add_right_comm, Nat.add_assoc]

/-- A record that both runs start ends alike in both, if the records before it leave its deal
alone or are the same. -/
theorem outcome_alike {deals : String → Prop} {n i : Nat} {s s' t t' : Scene}
    {records records' left left' : List Record} {parts parts' : List (Part Scene)}
    {calls calls' : List (Exchange Request.Answer)} {part part' : Part Scene}
    (divides : Divides (script.Answers S) Alone rt settings chaos n s records parts left calls t)
    (divides' : Divides (script'.Answers S) Alone rt settings chaos n s' records' parts' left' calls' t')
    (similar : ∀ deal, deals deal → SimilarFrom rt script script' deal n records records')
    (place : s.begun = n) (place' : s'.begun = n)
    (agree : ∀ deal, deals deal → rows s'.world.erp.db deal = rows s.world.erp.db deal)
    (here : parts[i]? = some part) (here' : parts'[i]? = some part')
    (own : ∀ deal, Concerns rt part.record.body deal → deals deal) (same : part'.record = part.record)
    (fates : SameFate (script.fates (n + i)) (script'.fates (n + i))) : part'.outcome = part.outcome := by
  induction divides generalizing s' records' parts' calls' i with
  | finished => cases here
  | outOfTime => cases here
  | @started n s t first rest left parts asked later asks handles crash remains ih =>
      cases divides' with
      | finished => cases here'
      | outOfTime => cases here'
      | @started _ _ _ first' rest' _ parts' _ _ asks' handles' crash' remains' =>
          have turn_ := (asked_script asks).1
          have turn_' := (asked_script asks').1
          rw [place] at turn_
          rw [place'] at turn_'
          cases i with
          | zero =>
              obtain rfl := Option.some.inj here
              obtain rfl := Option.some.inj here'
              have alike : Alike (Concerns rt first.record.body) first.before first'.before := by
                rw [turn_, turn_']
                exact ⟨fates, rfl, rfl, fun deal mem => agree deal (own deal mem)⟩
              rw [same] at handles'
              exact Except.ok.inj (handled_alike alike handles handles').1
          | succ i =>
              have begun : first.after.begun = n + 1 := by rw [handled_begun handles, turn_]
              have begun' : first'.after.begun = n + 1 := by rw [handled_begun handles', turn_']
              rw [turn_] at handles
              rw [turn_'] at handles'
              refine ih remains' (fun deal mem => (similar deal mem).2) begun begun'
                (fun deal mem => similar_step (similar deal mem).1 (agree deal mem) handles handles')
                here here' ?_
              rwa [Nat.add_right_comm, Nat.add_assoc]

theorem similar_refl {deal : String} {n : Nat} (records : List Record)
    (fates : ∀ i, n ≤ i → SameFate (script.fates i) (script'.fates i)) :
    SimilarFrom rt script script' deal n records records := by
  induction records generalizing n with
  | nil => trivial
  | cons first rest ih =>
      constructor
      · exact .inl ⟨rfl, fates n (le_refl n)⟩
      · exact ih fun i le => fates i (by omega)

theorem similar_set {deal : String} {n j : Nat} {records : List Record} {record replacing : Record}
    (here : records[j]? = some record)
    (fates : ∀ i, i ≠ n + j → SameFate (script.fates i) (script'.fates i))
    (apart : ¬ Concerns rt record.body deal) (apart' : ¬ Concerns rt replacing.body deal) :
    SimilarFrom rt script script' deal n records (records.set j replacing) := by
  induction records generalizing n j with
  | nil => cases here
  | cons first rest ih =>
      cases j with
      | zero =>
          obtain rfl := Option.some.inj here
          exact ⟨.inr ⟨apart, apart'⟩, similar_refl rest fun i le => fates i (by omega)⟩
      | succ j =>
          constructor
          · exact .inl ⟨rfl, fates n (by omega)⟩
          · exact ih here fun i other => fates i (by omega)

/-! ### The handler under a script -/

/-- The scene before the first call. -/
def Script.start (script : Script) (w : World) : Scene := ⟨w, 0, script.fates 0, 0, 0⟩

/-- The chaos flags that a script's parameters hold. -/
def Script.flags (script : Script) : Except Exn Chaos :=
  match script.parameters with
  | .error _ => .ok .off
  | .ok params => Chaos.ofParameters params

theorem loaded_script {paramPrefix : String} {s t : Scene} {calls : List (Exchange Request.Answer)}
    {result : Except Exn Chaos}
    (run : Traced (script.Answers S) Alone (Chaos.load paramPrefix) s calls result t) :
    result = script.flags ∧ t = s := by
  obtain ⟨s₁, params, s₂, later, -, moves, ⟨seen, answer, moved⟩, run⟩ := Traced.of_perform_bind run
  obtain rfl := eq_of_alone moves
  have world : s₂.world = s₁.world := seen
  rw [world] at moved
  rw [Script.flags, ← answer]
  cases params with
  | error message =>
      obtain ⟨-, rfl, rfl⟩ := Traced.of_ret run
      exact ⟨rfl, moved⟩
  | ok params =>
      obtain ⟨-, rfl, rfl⟩ := Traced.of_ret run
      exact ⟨rfl, moved⟩

/-- A run of the handler that returns divides under the chaos flags of its script. -/
theorem handler_divides {records : List Record} {w : World} {t : Scene}
    {calls : List (Exchange Request.Answer)} {ids : List String}
    (run : Traced (script.Answers S) Alone (handler rt settings records) (script.start w) calls (.ok ids) t) :
    ∃ chaos parts left handled, script.flags = .ok chaos ∧ ids = reported parts left ∧
      Divides (script.Answers S) Alone rt settings chaos 0 (script.start w) records parts left handled t := by
  obtain ⟨loaded, s, loads, handled, rfl, load, rest⟩ := Traced.of_bind run
  obtain ⟨flags, rfl⟩ := loaded_script load
  cases loaded with
  | error exc =>
      obtain ⟨-, ended, -⟩ := Traced.of_ret rest
      cases ended
  | ok chaos =>
      obtain ⟨parts, left, divides, rfl⟩ := divides_of_run rest
      exact ⟨chaos, parts, left, handled, flags.symm, List.nil_append _, divides⟩

/-- Replacing the body of one record changes, under one script for the others, neither whether
another record that both runs start is reported, nor the order and the invoice of a deal that
neither body concerns. -/
theorem records_isolated {records : List Record} {j : Nat} {record : Record} {body : String}
    (here : records[j]? = some record) (distinct : (records.map Record.messageId).Nodup)
    (parameters : script'.parameters = script.parameters)
    (fates : ∀ i, i ≠ j → SameFate (script.fates i) (script'.fates i)) {w : World} {t t' : Scene}
    {calls calls' : List (Exchange Request.Answer)} {ids ids' : List String}
    (run : Traced (script.Answers S) Alone (handler rt settings records) (script.start w) calls (.ok ids) t)
    (run' : Traced (script'.Answers S) Alone
      (handler rt settings (records.set j { record with body := body })) (script'.start w) calls' (.ok ids') t') :
    (∀ (i : Nat) (other : Record), i ≠ j → records[i]? = some other → InTime settings script i →
      InTime settings script' i →
      (∀ deal, Concerns rt other.body deal → ¬ Concerns rt record.body deal ∧ ¬ Concerns rt body deal) →
        (other.messageId ∈ ids ↔ other.messageId ∈ ids')) ∧
    ∀ deal, ¬ Concerns rt record.body deal → ¬ Concerns rt body deal →
      (∀ (i : Nat) (other : Record), i ≠ j → records[i]? = some other → Concerns rt other.body deal →
        (InTime settings script i ↔ InTime settings script' i)) →
      rows t'.world.erp.db deal = rows t.world.erp.db deal := by
  obtain ⟨chaos, parts, left, handled, flags, rfl, divides⟩ := handler_divides run
  obtain ⟨chaos', parts', left', handled', flags', rfl, divides'⟩ := handler_divides run'
  obtain rfl : chaos = chaos' := by
    have same : script'.flags = script.flags := by rw [Script.flags, Script.flags, parameters]
    rw [flags, flags'] at same
    exact (Except.ok.inj same).symm
  have similar : ∀ deal, ¬ Concerns rt record.body deal → ¬ Concerns rt body deal →
      SimilarFrom rt script script' deal 0 records (records.set j { record with body := body }) :=
    fun deal apart apart' => similar_set here (fun i other => fates i (by omega)) apart apart'
  constructor
  · intro i other apart there inTime inTime' deals
    have there' : (records.set j { record with body := body })[i]? = some other := by
      rw [List.getElem?_set_ne (Ne.symm apart)]
      exact there
    obtain ⟨part, placed, rfl⟩ := part_of_inTime divides rfl there (by rwa [Nat.zero_add])
    obtain ⟨part', placed', same⟩ := part_of_inTime divides' rfl there' (by rwa [Nat.zero_add])
    have outcomes := outcome_alike divides divides'
      (fun deal own => similar deal (deals deal own).1 (deals deal own).2) rfl rfl (fun _ _ => rfl) placed
      placed' (fun _ => id) same (fates _ (by omega))
    have ids : (records.set j { record with body := body }).map Record.messageId =
        records.map Record.messageId := by
      apply List.ext_getElem?
      intro k
      rw [List.getElem?_map, List.getElem?_map]
      by_cases own : k = j
      · subst own
        rw [here, List.getElem?_set_self (List.getElem?_eq_some_iff.mp here).1]
        rfl
      · rw [List.getElem?_set_ne (Ne.symm own)]
    have distinct' := distinct
    rw [← ids, divides'.records] at distinct'
    rw [divides.records] at distinct
    rw [mem_reported_iff distinct (List.mem_of_getElem? placed), ← same,
      mem_reported_iff distinct' (List.mem_of_getElem? placed'), outcomes]
  · intro deal apart apart' together
    refine rows_at_end divides divides' (similar deal apart apart') ?_ rfl rfl (by simp) (by simp) rfl
    intro i other there concerned
    rw [Nat.zero_add]
    refine together i other ?_ there concerned
    rintro rfl
    obtain rfl := Option.some.inj (here.symm.trans there)
    exact apart concerned

end Batches

end Relay.Worker
