import Relay.Effect.Trace
import Relay.Erp.Agreement
import Relay.Worker.Classify

/-!
A verdict is never more final than the facts.

One `write_order` runs against any stored orders, any outcome of its transaction
and any writes of others. `Justified` says what each of its results stands for at
the moment of its last answer; that no later write lowers a version
(`VersionAt.others`) makes it last.
-/

namespace Relay.Erp

open Relay.Effect Relay.Platform Relay.Dynamo Relay.Python Relation

/-! ### Stored versions -/

/-- The orders table holds this version. -/
def VersionAt (db : Db Table) (orderId : String) (version : Int) : Prop :=
  ∃ item, db .orders orderId = some item ∧ item "version" = some (.n version)

/-- Every stored order has its key and an integer version. -/
def Versioned (db : Db Table) : Prop :=
  ∀ orderId item, db .orders orderId = some item →
    item "order_id" = some (.s orderId) ∧ ∃ version : Int, item "version" = some (.n version)

/-- Another writer's transaction commits, or the ERP is left alone. -/
def Others (w w' : World) : Prop :=
  w'.erp = w.erp ∨ ∃ order now, Committed (transaction order now) w.erp w'.erp

theorem assign_of_not_mem {old : Option Item} {set : List (String × Operand)} {item item' : Item}
    {name : String} (absent : name ∉ set.map Prod.fst) (assigned : assign old item set = some item') :
    item' name = item name := by
  induction set generalizing item with
  | nil =>
      cases assigned
      rfl
  | cons action rest ih =>
      obtain ⟨other, operand⟩ := action
      rw [List.map_cons, List.mem_cons, not_or] at absent
      rw [assign] at assigned
      split at assigned
      · cases assigned
      · rw [ih absent.2 assigned, Function.update_of_ne absent.1]

/-- The value of a SET action stays to the end when no later one writes the same name. -/
theorem assign_of_mem {old : Option Item} {set : List (String × Operand)} {item item' : Item}
    (distinct : (set.map Prod.fst).Nodup) {name : String} {operand : Operand} (mem : (name, operand) ∈ set)
    (assigned : assign old item set = some item') : item' name = operand.eval old := by
  induction set generalizing item with
  | nil => cases mem
  | cons action rest ih =>
      obtain ⟨fresh, others⟩ := List.nodup_cons.mp distinct
      rw [assign] at assigned
      split at assigned
      · cases assigned
      · rename_i v value
        rcases List.mem_cons.mp mem with rfl | mem
        · rw [assign_of_not_mem fresh assigned, Function.update_self, value]
        · exact ih others mem assigned

/-- A commit stores its own version and keeps the key. -/
theorem orderUpdate_version {order : Order} {now : String} {old : Option Item} {item : Item}
    (applied : (orderUpdate order now).apply old = some item) :
    item "version" = some (.n order.version) ∧
      item "order_id" = (old.getD (Function.update (fun _ => none) "order_id"
        (some (.s order.orderId)))) "order_id" := by
  constructor
  · have set_ : ("version", n order.version) ∈ (orderUpdate order now).set := by simp [orderUpdate]
    exact assign_of_mem (by simp [orderUpdate]) set_ applied
  · exact assign_of_not_mem (by simp [orderUpdate]) applied

theorem target_ne {order : Order} {now orderId : String} (other : orderId ≠ order.orderId) :
    ∀ u ∈ transaction order now, u.target ≠ (Table.orders, orderId) := by
  intro u mem
  simp only [transaction, List.mem_cons, List.not_mem_nil, or_false] at mem
  rcases mem with rfl | rfl | rfl
  · simp [Update.target, orderUpdate, Ne.symm other]
  · simp [Update.target, invoiceUpdate]
  · simp [Update.target, customerUpdate]

/-- What a commit makes of the orders: only its own changes, to its own version, and only
from an older one. -/
theorem order_of_committed {order : Order} {now : String} {s s' : State Table}
    (committed : Committed (transaction order now) s s') :
    (∃ item, s'.db .orders order.orderId = some item ∧ item "version" = some (.n order.version) ∧
      item "order_id" = ((s.db .orders order.orderId).getD (Function.update (fun _ => none) "order_id"
        (some (.s order.orderId)))) "order_id") ∧
    (orderUpdate order now).conditionHolds (s.db .orders order.orderId) = true ∧
    ∀ orderId, orderId ≠ order.orderId → s'.db .orders orderId = s.db .orders orderId := by
  have mem : orderUpdate order now ∈ transaction order now := by simp [transaction]
  refine ⟨?_, Db.transact_condition committed.1 mem, fun orderId other => ?_⟩
  · obtain ⟨applied, stored⟩ := Db.transact_target committed.1 mem
    obtain ⟨item, here⟩ := Option.isSome_iff_exists.mp stored
    rw [here] at applied
    exact ⟨item, here, orderUpdate_version applied⟩
  · exact Db.transact_frame committed.1 (target_ne other)

theorem Versioned.committed {order : Order} {now : String} {s s' : State Table}
    (versioned : Versioned s.db) (committed : Committed (transaction order now) s s') :
    Versioned s'.db := by
  obtain ⟨⟨item, here, version, key⟩, -, others⟩ := order_of_committed committed
  intro orderId stored present
  by_cases own : orderId = order.orderId
  · subst own
    obtain rfl := Option.some.inj (here.symm.trans present)
    refine ⟨?_, order.version, version⟩
    rw [key]
    cases before : s.db .orders order.orderId with
    | none => simp
    | some old => exact (versioned _ old before).1
  · rw [others orderId own] at present
    exact versioned orderId stored present

/-- The condition is false only of a stored order at the incoming version or above. -/
theorem condition_iff {db : Db Table} (versioned : Versioned db) {order : Order} {now : String} :
    (orderUpdate order now).conditionHolds (db .orders order.orderId) = false ↔
      ∃ version, VersionAt db order.orderId version ∧ order.version ≤ version := by
  cases here : db .orders order.orderId with
  | none =>
      constructor
      · intro failed
        cases failed
      · rintro ⟨version, ⟨item, present, -⟩, -⟩
        cases here.symm.trans present
  | some item =>
      obtain ⟨key, version, value⟩ := versioned _ item here
      have failed_iff : (orderUpdate order now).conditionHolds (some item) = false ↔
          order.version ≤ version := by
        simp [Update.conditionHolds, orderUpdate, Condition.holds, key, value]
      rw [failed_iff]
      constructor
      · intro le
        exact ⟨version, ⟨item, here, value⟩, le⟩
      · rintro ⟨version', ⟨item', present, value'⟩, le⟩
        obtain rfl := Option.some.inj (here.symm.trans present)
        have same : (version : ℚ) = version' := by simpa using value.symm.trans value'
        have same : version = version' := by exact_mod_cast same
        omega

theorem Versioned.others {w w' : World} (versioned : Versioned w.erp.db) (moved : Others w w') :
    Versioned w'.erp.db := by
  rcases moved with same | ⟨order, now, committed⟩
  · rwa [same]
  · exact versioned.committed committed

/-- No write of another lowers a stored version. -/
theorem VersionAt.others {w w' : World} (versioned : Versioned w.erp.db) {orderId : String}
    {version : Int} (stored : VersionAt w.erp.db orderId version) (moved : Others w w') :
    ∃ version', VersionAt w'.erp.db orderId version' ∧ version ≤ version' := by
  rcases moved with same | ⟨order, now, committed⟩
  · rw [same]
    exact ⟨version, stored, le_refl _⟩
  · obtain ⟨⟨item, here, value, -⟩, holds, others⟩ := order_of_committed committed
    by_cases own : orderId = order.orderId
    · subst own
      refine ⟨order.version, ⟨item, here, value⟩, ?_⟩
      by_contra newer
      have failed : (orderUpdate order now).conditionHolds (w.erp.db .orders order.orderId) = false :=
        (condition_iff versioned).mpr ⟨version, stored, by omega⟩
      rw [holds] at failed
      cases failed
    · obtain ⟨old, present, value'⟩ := stored
      exact ⟨version, ⟨old, by rw [others orderId own, present], value'⟩, le_refl _⟩

theorem Versioned.star {w w' : World} (versioned : Versioned w.erp.db)
    (moves : ReflTransGen Others w w') : Versioned w'.erp.db := by
  induction moves with
  | refl => exact versioned
  | tail _ move ih => exact ih.others move

theorem VersionAt.star {w w' : World} (versioned : Versioned w.erp.db) {orderId : String}
    {version : Int} (stored : VersionAt w.erp.db orderId version) (moves : ReflTransGen Others w w') :
    ∃ version', VersionAt w'.erp.db orderId version' ∧ version ≤ version' := by
  induction moves with
  | refl => exact ⟨version, stored, le_refl _⟩
  | tail before move ih =>
      obtain ⟨version₁, stored₁, le₁⟩ := ih
      obtain ⟨version₂, stored₂, le₂⟩ := stored₁.others (versioned.star before) move
      exact ⟨version₂, stored₂, le₁.trans le₂⟩

/-! ### One `write_order` -/

/-- A failed order condition is reported only where it is false, and with no other item than
the stored one. The other reasons may say anything. -/
def HeadTruthful (us : List (Update Table)) (response : ErrorResponse) (db : Db Table) : Prop :=
  ∀ u reason, us.head? = some u → response.reasons.head? = some reason →
    reason.code = some "ConditionalCheckFailed" →
      u.conditionHolds (db u.table u.key) = false ∧
        ∀ item, reason.item = some item → db u.table u.key = some item

/-- What `write_order` may see of its calls. -/
def Replies : (request : Request) → World → request.Answer → World → Prop
  | .transactWriteItems items, w, reply, w' =>
      (w'.erp = w.erp ∨ Committed items w.erp w'.erp) ∧
        match reply with
        | .ok () => Committed items w.erp w'.erp
        | .error (.client response) => HeadTruthful items response w'.erp.db
        | .error (.other _ _) => True
  | .getItem table key, w, reply, w' => w' = w ∧ ∀ item, reply = .ok item → item = w.erp.db table key
  | _, _, _, _ => True

theorem replies_of_answers (S : Services) {request : Request} {w w' : World} {reply : request.Answer}
    (answered : S.Answers request w reply w') : Replies request w reply w' := by
  cases request with
  | transactWriteItems items =>
      obtain ⟨erp, seen, rfl⟩ := answered
      refine ⟨seen.cases, ?_⟩
      cases reply with
      | ok done => exact seen.2
      | error fault =>
          cases fault with
          | other typeName message => trivial
          | client response =>
              intro u reason first reported named
              refine (show Truthful items response erp.db from seen.2) 0 u reason ?_ ?_ named
              · rw [← List.head?_eq_getElem?, first]
              · rw [← List.head?_eq_getElem?, reported]
  | getItem table key => exact answered
  | _ => trivial

/-- The transaction was cancelled by the order's own condition, which was false then. -/
def ConditionFailed (order : Order) (now : String) (w : World) (calls : List (Exchange Request.Answer)) :
    Prop :=
  ∃ w₁ w₂ response reason others rest, ReflTransGen Others w w₁ ∧
    Replies (.transactWriteItems (transaction order now)) w₁ (.error (.client response)) w₂ ∧
    calls = ⟨.transactWriteItems (transaction order now), .error (.client response)⟩ :: rest ∧
    response.code = some "TransactionCanceledException" ∧ response.reasons = reason :: others ∧
    reason.code = some "ConditionalCheckFailed" ∧
    (orderUpdate order now).conditionHolds (w₂.erp.db .orders order.orderId) = false

/-- A refusal of the data itself: of the whole request, or of an item of a transaction with
no transient code and no failed order condition. -/
def Refuses (response : ErrorResponse) : Prop :=
  response.code = some "ValidationException" ∨
    (response.code.getD "" = "TransactionCanceledException" ∧
      "ValidationError" ∈ response.reasons.map code ∧
      (∀ c ∈ response.reasons.map code, c ∉ transientCodes) ∧
      (response.reasons.map code).head? ≠ some "ConditionalCheckFailed")

/-- What the result of a run from `w` to `w'` stands for. The run ends with its last answer,
so `w'` is the moment at which the order was returned or read. -/
structure Justified (order : Order) (now : String) (w : World) (calls : List (Exchange Request.Answer))
    (result : Except Exn WriteResult) (w' : World) : Prop where
  written : result = .ok .written →
    ∃ w₁, ReflTransGen Others w w₁ ∧ Committed (transaction order now) w₁.erp w'.erp
  duplicate : result = .ok .duplicate →
    ConditionFailed order now w calls ∧ VersionAt w'.erp.db order.orderId order.version
  stale : result = .ok .stale → ConditionFailed order now w calls ∧
    ∃ version, VersionAt w'.erp.db order.orderId version ∧ order.version < version
  /-- An event newer than the stored order is never acknowledged, now or later. -/
  acknowledged : ∀ value, result = .ok value → ∀ w'', ReflTransGen Others w' w'' →
    ∃ version, VersionAt w''.erp.db order.orderId version ∧ order.version ≤ version
  rejected : ∀ message, result = .error (.erpRejected message) →
    ∃ response rest, Refuses response ∧
      calls = ⟨.transactWriteItems (transaction order now), .error (.client response)⟩ :: rest
  transient : ∀ exc, result = .error exc → (∀ message, exc ≠ .erpRejected message) →
    (Worker.classify exc).kind = .transient

section Runs

variable {printable : Char → Bool} {order : Order} {now : String} {w w' : World}
  {calls : List (Exchange Request.Answer)}

/-- A failure that is retried stands for nothing. -/
theorem justified_transient {exc : Exn} (transient : (Worker.classify exc).kind = .transient) :
    Justified order now w calls (.error exc) w' where
  written := by rintro ⟨⟩
  duplicate := by rintro ⟨⟩
  stale := by rintro ⟨⟩
  acknowledged := by rintro value ⟨⟩
  rejected := by
    rintro message ⟨⟩
    cases transient
  transient := by
    rintro exc ⟨⟩ -
    exact transient

theorem justified_rejected {message : String} {response : ErrorResponse}
    {rest : List (Exchange Request.Answer)} (refuses : Refuses response) :
    Justified order now w (⟨.transactWriteItems (transaction order now), .error (.client response)⟩ :: rest)
      (.error (.erpRejected message)) w' where
  written := by rintro ⟨⟩
  duplicate := by rintro ⟨⟩
  stale := by rintro ⟨⟩
  acknowledged := by rintro value ⟨⟩
  rejected := fun _ _ => ⟨response, rest, refuses, rfl⟩
  transient := by
    rintro exc ⟨⟩ other
    exact absurd rfl (other message)

/-- A verdict on the order that failed the condition. -/
theorem justified_verdict (failed : ConditionFailed order now w calls) (versioned : Versioned w'.erp.db)
    {item : Item} (here : w'.erp.db .orders order.orderId = some item) :
    Justified order now w calls (verdict order (some item)) w' := by
  obtain ⟨-, version, value⟩ := versioned _ item here
  have stored : VersionAt w'.erp.db order.orderId version := ⟨item, here, value⟩
  have lasts : ∀ w'', ReflTransGen Others w' w'' → order.version ≤ version →
      ∃ version', VersionAt w''.erp.db order.orderId version' ∧ order.version ≤ version' := by
    intro w'' moves le
    obtain ⟨version', stored', le'⟩ := stored.star versioned moves
    exact ⟨version', stored', le.trans le'⟩
  rw [verdict_of_stored value]
  split
  · rename_i same
    subst same
    exact {
      written := by rintro ⟨⟩
      duplicate := fun _ => ⟨failed, stored⟩
      stale := by rintro ⟨⟩
      acknowledged := fun _ _ w'' moves => lasts w'' moves (le_refl _)
      rejected := by rintro message ⟨⟩
      transient := by rintro exc ⟨⟩ }
  · split
    · rename_i newer
      exact {
        written := by rintro ⟨⟩
        duplicate := by rintro ⟨⟩
        stale := fun _ => ⟨failed, version, stored, newer⟩
        acknowledged := fun _ _ w'' moves => lasts w'' moves newer.le
        rejected := by rintro message ⟨⟩
        transient := by rintro exc ⟨⟩ }
    · exact justified_transient rfl

theorem justified_written {w₁ : World} (moves : ReflTransGen Others w w₁) (versioned : Versioned w₁.erp.db)
    (committed : Committed (transaction order now) w₁.erp w'.erp) :
    Justified order now w calls (.ok .written) w' where
  written := fun _ => ⟨w₁, moves, committed⟩
  duplicate := by rintro ⟨⟩
  stale := by rintro ⟨⟩
  acknowledged := by
    intro value _ w'' later
    obtain ⟨⟨item, here, version, -⟩, -, -⟩ := order_of_committed committed
    exact VersionAt.star (versioned.committed committed) ⟨item, here, version⟩ later
  rejected := by rintro message ⟨⟩
  transient := by rintro exc ⟨⟩

/-- A cancelled transaction whose order condition did not fail. -/
theorem justified_codes {response : ErrorResponse} (cancelled_ : response.code.getD "" =
      "TransactionCanceledException") {codes : List String} (same : codes = response.reasons.map code)
    (unfailed : codes.head? ≠ some "ConditionalCheckFailed") :
    Justified order now w [⟨.transactWriteItems (transaction order now), .error (.client response)⟩]
      (.error (classifyCodes printable codes)) w' := by
  unfold classifyCodes
  split
  · exact justified_transient rfl
  · rename_i none_
    split
    · rename_i refused
      apply justified_rejected
      refine .inr ⟨cancelled_, same ▸ refused, fun c mem => ?_, same ▸ unfailed⟩
      intro transient
      refine none_ (List.any_eq_true.mpr ⟨c, same ▸ mem, ?_⟩)
      simpa using transient
    · exact justified_transient rfl

/-- What `_classify` makes of a client error. -/
theorem justified_classify {response : ErrorResponse} {w₁ w₂ : World}
    (moves : ReflTransGen Others w w₁) (versioned : Versioned w₂.erp.db)
    (answered : Replies (.transactWriteItems (transaction order now)) w₁ (.error (.client response)) w₂)
    {rest : List (Exchange Request.Answer)} {result : Except Exn WriteResult}
    (run : Traced Replies Others (classify printable response order) w₂ rest result w') :
    Justified order now w
      (⟨.transactWriteItems (transaction order now), .error (.client response)⟩ :: rest) result w' := by
  unfold classify at run
  split at run
  · rename_i cancelled_
    split at run
    · rename_i first others reasons
      split at run
      · rename_i failed
        have named : first.code = some "ConditionalCheckFailed" := by
          unfold code at failed
          cases present : first.code with
          | none =>
              rw [present] at failed
              exact absurd failed (by decide)
          | some text =>
              rw [present] at failed
              exact congrArg some failed
        obtain ⟨false_, returned⟩ := answered.2 (orderUpdate order now) first rfl
          (by rw [reasons]; rfl) named
        have top : response.code = some "TransactionCanceledException" := by
          cases present : response.code with
          | none =>
              rw [present] at cancelled_
              exact absurd cancelled_ (by decide)
          | some text =>
              rw [present] at cancelled_
              exact congrArg some cancelled_
        have conditionFailed : ∀ rest, ConditionFailed order now w
            (⟨.transactWriteItems (transaction order now), .error (.client response)⟩ :: rest) :=
          fun rest => ⟨w₁, w₂, response, first, others, rest, moves, answered, rfl, top, reasons, named,
            false_⟩
        split at run
        · rename_i item present
          obtain ⟨rfl, rfl, rfl⟩ := Traced.of_ret run
          exact justified_verdict (conditionFailed _) versioned (returned item present)
        · obtain ⟨w₃, reply, w₄, later, rfl, moves', ⟨rfl, read⟩, run⟩ := Traced.of_perform_bind run
          cases reply with
          | error fault =>
              obtain ⟨rfl, rfl, rfl⟩ := Traced.of_ret run
              apply justified_transient
              cases fault <;> rfl
          | ok stored =>
              obtain ⟨rfl, rfl, rfl⟩ := Traced.of_ret run
              -- The order that failed the condition is still stored when it is read.
              obtain ⟨version, before, -⟩ := (condition_iff versioned).mp false_
              obtain ⟨version', ⟨item, here, -⟩, -⟩ := before.star versioned moves'
              rw [read stored rfl, here]
              exact justified_verdict (conditionFailed _) (versioned.star moves') here
      · rename_i unfailed
        obtain ⟨rfl, rfl, rfl⟩ := Traced.of_ret run
        exact justified_codes cancelled_ (by rw [reasons]) (by simpa using unfailed)
    · rename_i none_
      obtain ⟨rfl, rfl, rfl⟩ := Traced.of_ret run
      exact justified_codes cancelled_ (by rw [none_]; rfl) (by simp)
  · split at run
    · rename_i invalid
      obtain ⟨rfl, rfl, rfl⟩ := Traced.of_ret run
      apply justified_rejected
      left
      cases present : response.code with
      | none =>
          rw [present] at invalid
          exact absurd invalid (by decide)
      | some text =>
          rw [present] at invalid
          exact congrArg some invalid
    · split at run
      · obtain ⟨rfl, rfl, rfl⟩ := Traced.of_ret run
        exact justified_transient rfl
      · obtain ⟨rfl, rfl, rfl⟩ := Traced.of_ret run
        exact justified_transient rfl

/-- Whatever is stored, whatever its transaction answers and whatever others write, the
result of `write_order` is justified. -/
theorem writeOrder_justified (versioned : Versioned w.erp.db) {result : Except Exn WriteResult}
    (run : Traced Replies Others (writeOrder printable order now) w calls result w') :
    Justified order now w calls result w' := by
  unfold writeOrder at run
  obtain ⟨w₁, reply, w₂, later, rfl, moves, answered, run⟩ := Traced.of_perform_bind run
  have before := versioned.star moves
  have after : Versioned w₂.erp.db := by
    rcases answered.1 with same | committed
    · rwa [same]
    · exact before.committed committed
  cases reply with
  | ok done =>
      obtain ⟨rfl, rfl, rfl⟩ := Traced.of_ret run
      exact justified_written moves before answered.2
  | error fault =>
      cases fault with
      | client response => exact justified_classify moves after answered run
      | other typeName message =>
          obtain ⟨rfl, rfl, rfl⟩ := Traced.of_ret run
          exact justified_transient rfl

end Runs

/-- The same order again, after it was written: the stored item comes back with the error. -/
theorem writeOrder_justified_twice : ∃ w calls w',
    Justified firstOrder "later" w calls (.ok .duplicate) w' := by
  obtain ⟨db, written⟩ : ∃ db, State.empty.db.transact (transaction firstOrder "now") = some db :=
    ⟨_, rfl⟩
  have committed : Committed (transaction firstOrder "now") State.empty
      ⟨db, [transaction firstOrder "now"]⟩ := ⟨written, rfl⟩
  have empty : Versioned State.empty.db := by
    rintro orderId item ⟨⟩
  have versioned : Versioned db := empty.committed committed
  obtain ⟨⟨item, here, version, -⟩, -, -⟩ := order_of_committed committed
  let w : World := { World.empty with erp := ⟨db, [transaction firstOrder "now"]⟩ }
  let response : ErrorResponse :=
    ⟨some "TransactionCanceledException", none, [⟨some "ConditionalCheckFailed", some item⟩]⟩
  have failed : (orderUpdate firstOrder "later").conditionHolds (db .orders firstOrder.orderId) = false :=
    (condition_iff versioned).mpr ⟨_, ⟨item, here, version⟩, le_refl _⟩
  have answered : Replies (.transactWriteItems (transaction firstOrder "later")) w
      (.error (.client response)) w := by
    refine ⟨.inl rfl, ?_⟩
    rintro u reason ⟨⟩ ⟨⟩ -
    refine ⟨failed, ?_⟩
    rintro item' ⟨⟩
    exact here
  have run : Traced Replies Others (writeOrder (fun _ => true) firstOrder "later") w
      [⟨.transactWriteItems (transaction firstOrder "later"), .error (.client response)⟩]
      (verdict firstOrder (some item)) w := .call .refl answered .ret
  have duplicate : verdict firstOrder (some item) = .ok .duplicate := by
    rw [verdict_of_stored version, if_pos rfl]
  rw [duplicate] at run
  exact ⟨w, _, w, writeOrder_justified versioned run⟩

end Relay.Erp
