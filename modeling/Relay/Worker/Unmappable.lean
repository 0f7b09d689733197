import Relay.Effect.Trace
import Relay.Json.Steps
import Relay.Worker.App
import Relay.Worker.Schema

/-!
What the worker does with a body that is no order.

`parse_body` and `to_order` report a bad body as a `PermanentError`, and the
worker parks it. Two limits of the interpreter get past them: a number it does
not convert, and nesting that it does not follow. Such a body is retried.
-/

namespace Relay.Worker

open Relay.Platform Relay.Python Relay.Effect Relay.Json Relay.Data Relay.Erp

/-! ### What the interpreter reads -/

/-- A number that the interpreter converts: an integer of at most 4300 digits, or
a decimal whose exponent fits. -/
def convertible : Token → Bool
  | .number t =>
      if t.isInt then decide ((Nat.toDigits 10 t.whole).length ≤ maxStrDigits)
      else (Dec.ofNumText t).fits
  | _ => true

/-- The decoder comes to no number that is not converted, and to no array or
object that is too deep. A syntax error ends what it comes to. -/
structure Readable (rt : Runtime) (body : String) : Prop where
  numbers : ∀ t, Meets body.toList t → convertible t = true
  depth : ¬ NestsDeeper body.toList rt.depth

theorem parseNumber_cases (t : Token) :
    (∃ value, parseNumber t = .ok value ∧ convertible t = true) ∨
    (∃ typeName message, parseNumber t = .error (.other typeName message) ∧ convertible t = false) := by
  cases t with
  | number t =>
      by_cases integer : t.isInt = true
      · by_cases short : (Nat.toDigits 10 t.whole).length ≤ maxStrDigits
        · refine .inl ⟨.int t.intValue, ?_, ?_⟩
          · simp [parseNumber, integer, int, short, Except.map]
          · simp [convertible, integer, short]
        · refine .inr ⟨"ValueError",
            "Exceeds the limit (4300 digits) for integer string conversion", ?_, ?_⟩
          · simp only [parseNumber, integer, if_true, int, if_neg short, Except.map]
          · simp [convertible, integer, short]
      · by_cases fits : (Dec.ofNumText t).fits = true
        · refine .inl ⟨.num (.decimal (.ofNumText t)), ?_, ?_⟩
          · simp [parseNumber, integer, fits]
          · simp [convertible, integer, fits]
        · refine .inr ⟨"InvalidOperation", "[<class 'decimal.InvalidOperation'>]", ?_, ?_⟩
          · simp only [parseNumber, if_neg integer, if_neg fits]
          · simp [convertible, integer, fits]
  | nan => exact .inl ⟨_, rfl, rfl⟩
  | infinity => exact .inl ⟨_, rfl, rfl⟩
  | negInfinity => exact .inl ⟨_, rfl, rfl⟩

/-- The hook of `parse_body`. -/
abbrev numberHook : Hook Exn PyNum := fun t => (parseNumber t).map Number.value

theorem numberHook_error_iff {t : Token} :
    (∃ exc, numberHook t = .error exc) ↔ convertible t = false := by
  rcases parseNumber_cases t with ⟨value, parsed, good⟩ | ⟨typeName, message, failed, bad⟩
  · simp [numberHook, parsed, good, Except.map]
  · simp [numberHook, failed, bad, Except.map]

theorem readable_iff {rt : Runtime} {body : String} :
    Readable rt body ↔ ¬ ((∃ exc, loads numberHook rt.depth body.toList = .error (.number exc)) ∨
      loads numberHook rt.depth body.toList = .error .tooDeep) := by
  rw [loads_stops_iff, not_or]
  constructor
  · intro readable
    refine ⟨?_, readable.depth⟩
    rintro ⟨t, exc, meets, refused⟩
    have bad := numberHook_error_iff.mp ⟨exc, refused⟩
    rw [readable.numbers t meets] at bad
    cases bad
  · rintro ⟨numbers, depth⟩
    refine ⟨?_, depth⟩
    intro t meets
    rw [← Bool.not_eq_false]
    intro bad
    obtain ⟨exc, refused⟩ := numberHook_error_iff.mpr bad
    exact numbers ⟨t, exc, meets, refused⟩

/-- What a hook reports of a number is what `parse_body` makes of it. -/
theorem number_error {depth : Nat} {cs : List Char} {exc : Exn}
    (failed : loads numberHook depth cs = .error (.number exc)) :
    ∃ typeName message, exc = .other typeName message := by
  obtain ⟨steps, follows⟩ := loads_steps depth cs
  have run := follows Exn PyNum numberHook depth le_rfl
  cases stopped : stop numberHook depth steps with
  | none =>
      rw [stopped, failed] at run
      rcases run with ⟨value, read⟩ | ⟨msg, left, read⟩ <;> cases read
  | some err =>
      rw [stopped, failed] at run
      cases run
      rcases stop_cases stopped with ⟨t, exc', -, refused, same, -⟩ | ⟨same, -⟩
      · cases same
        rcases parseNumber_cases t with ⟨value, parsed, -⟩ | ⟨typeName, message, refused', -⟩
        · simp [numberHook, parsed, Except.map] at refused
        · simp only [numberHook, refused', Except.map, Except.error.injEq] at refused
          exact ⟨typeName, message, refused.symm⟩
      · cases same

/-- `parse_body` raises nothing but a `PermanentError` exactly on a readable body. -/
theorem permanent_parseBody_iff (rt : Runtime) (body : String) :
    Permanent (parseBody rt body) ↔ Readable rt body := by
  rw [readable_iff]
  constructor
  · rintro permanent (⟨exc, failed⟩ | failed)
    · have raised : parseBody rt body = .error exc := by simp only [parseBody, failed]
      obtain ⟨reason, detail, rfl⟩ := permanent exc raised
      obtain ⟨typeName, message, same⟩ := number_error failed
      cases same
    · have raised : parseBody rt body =
          .error (.other "RecursionError" "maximum recursion depth exceeded") := by
        simp only [parseBody, failed]
      obtain ⟨reason, detail, same⟩ := permanent _ raised
      cases same
  · intro readable
    unfold parseBody
    split
    · exact permanent_ok _
    · exact permanent_error _ _
    · exact permanent_error _ _
    · rename_i exc failed
      exact absurd (.inl ⟨exc, failed⟩) readable
    · rename_i failed
      exact absurd (.inr failed) readable

theorem permanent_orderOf_iff (rt : Runtime) (body : String) :
    Permanent (orderOf rt body) ↔ Readable rt body := by
  rw [← permanent_parseBody_iff]
  unfold orderOf
  cases parsed : parseBody rt body with
  | ok event =>
      constructor
      · intro _
        exact permanent_ok _
      · intro _
        exact permanent_toOrder rt event
  | error exc =>
      constructor
      · intro permanent exc' same
        cases same
        exact permanent exc rfl
      · intro permanent exc' same
        cases same
        exact permanent exc rfl

/-! ### Reasons -/

/-- Every error of a check has a reason. -/
theorem reason_of_check {rt : Runtime} {event : List (String × Obj)} {Good : String → Prop}
    {check : Check Exn}
    (mem : check ∈ checksBeforeDate rt event ++ dateCheck Good event :: checksAfterDate event) :
    ∃ reason detail, check.error = .permanentError reason detail ∧ reason ≠ "" := by
  simp only [checksBeforeDate, checksAfterDate, List.mem_append, List.mem_cons, List.not_mem_nil,
    or_false] at mem
  rcases mem with (rfl | rfl | rfl | rfl | rfl | rfl | rfl | rfl | rfl) | rfl | rfl | rfl | rfl <;>
    exact ⟨_, _, rfl, by decide⟩

theorem reason_toOrder {rt : Runtime} {event : List (String × Obj)} {exc : Exn}
    (failed : toOrder rt event = .error exc) :
    ∃ reason detail, exc = .permanentError reason detail ∧ reason ≠ "" := by
  obtain ⟨before, check, after, split, -, -, rfl⟩ := (answers_toOrder rt event).refuses exc failed
  exact reason_of_check (by rw [split]; simp)

theorem reason_orderOf {rt : Runtime} {body : String} {exc : Exn}
    (permanent : Permanent (orderOf rt body)) (failed : orderOf rt body = .error exc) :
    ∃ reason detail, exc = .permanentError reason detail ∧ reason ≠ "" := by
  obtain ⟨reason, detail, rfl⟩ := permanent exc failed
  unfold orderOf at failed
  cases parsed : parseBody rt body with
  | ok event =>
      rw [parsed] at failed
      exact reason_toOrder failed
  | error exc =>
      rw [parsed] at failed
      cases failed
      unfold parseBody at parsed
      split at parsed
      · cases parsed
      · cases parsed
        exact ⟨_, _, rfl, by decide⟩
      · cases parsed
        exact ⟨_, _, rfl, by decide⟩
      · rename_i refused
        cases parsed
        obtain ⟨typeName, message, same⟩ := number_error refused
        cases same
      · cases parsed

/-! ### One delivery -/

/-- Anything may answer a call. -/
def anyAnswer (request : Request) (_ : Unit) (_ : request.Answer) (_ : Unit) : Prop := True

/-- A run with its calls, whatever they are answered. -/
abbrev Runs {α : Type} (program : Act α) (calls : List (Exchange Request.Answer)) (value : α) : Prop :=
  Traced anyAnswer (fun _ _ => False) program () calls value ()

theorem Runs.call {α : Type} {request : Request} {next : request.Answer → Act α}
    {reply : request.Answer} {calls : List (Exchange Request.Answer)} {value : α}
    (rest : Runs (next reply) calls value) :
    Runs (.call request next) (⟨request, reply⟩ :: calls) value :=
  Traced.call .refl trivial rest

def SendsSucceed (calls : List (Exchange Request.Answer)) : Prop :=
  ∀ body attributes reply, ⟨.sendMessage .deadLetters body attributes, reply⟩ ∈ calls → reply = .ok ()

/-- The record ends dead-lettered, its body sent with a reason, when sends to the
DLQ succeed. -/
def Parks (rt : Runtime) (settings : Settings) (record : Record) : Prop :=
  ∀ calls result, Runs (handleRecord rt settings record Chaos.off) calls result →
    SendsSucceed calls → result = .ok .deadLettered ∧
      ∃ reason detail now, reason ≠ "" ∧
        ⟨.sendMessage .deadLetters record.body
          (deadLetterAttributes record reason detail (eventKey record) now), .ok ()⟩ ∈ calls

/-- A body that is no order is reported as a `PermanentError` and parked on its
first delivery. -/
def UnmappableParked (rt : Runtime) (body : String) : Prop :=
  Permanent (orderOf rt body) ∧
    ((∀ order, orderOf rt body ≠ .ok order) → ∀ settings record, record.body = body →
      record.approximateReceiveCount = some 1 → Parks rt settings record)

theorem process_of_error {rt : Runtime} {record : Record} {exc : Exn} (chaos : Chaos)
    (failed : orderOf rt record.body = .error exc) :
    process rt record chaos = pure (.error exc) := by
  simp only [process, failed]

theorem parks_of_permanent {rt : Runtime} {record : Record} {reason detail : String}
    (settings : Settings) (failed : orderOf rt record.body = .error (.permanentError reason detail))
    (given : reason ≠ "") : Parks rt settings record := by
  intro calls result run succeed
  simp only [handleRecord, process_of_error Chaos.off failed, Prog.pure_bind_eq, handleFailure, classify,
    deadLetter] at run
  obtain ⟨first, w₁, before, after, rfl, send, rest⟩ := run.of_bind
  obtain ⟨_, now, _, later, rfl, -, -, send⟩ := send.of_perform_bind
  obtain ⟨_, reply, _, later', rfl, -, -, send⟩ := send.of_perform_bind
  have sent : reply = .ok () := succeed _ _ reply (by simp)
  subst sent
  obtain ⟨rfl, rfl, rfl⟩ := send.of_ret
  obtain ⟨rfl, rfl, -⟩ := rest.of_ret
  exact ⟨rfl, reason, _, now, given,
    List.mem_append_left _ (List.mem_cons_of_mem _ List.mem_cons_self)⟩

/-- A body that fails for another reason is retried after a delay. -/
theorem retries_of_transient {rt : Runtime} {settings : Settings} {record : Record} {exc : Exn}
    {seconds : ℚ} (failed : orderOf rt record.body = .error exc)
    (transient : (classify exc).kind = .transient)
    (wait : delay (record.approximateReceiveCount.getD 1) settings.backoffBase settings.backoffCap =
      .ok seconds) (draw : ℚ) :
    Runs (handleRecord rt settings record Chaos.off)
      [⟨.random, draw⟩, ⟨.changeMessageVisibility record.eventSource record.receiptHandle
        (min maxVisibilityTimeout ⌈seconds + settings.backoffBase * draw⌉), .ok ()⟩]
      (.ok .retry) := by
  rw [handleRecord, process_of_error Chaos.off failed, Prog.pure_bind_eq]
  simp only [handleFailure, transient, nextVisibilityTimeout, wait]
  exact Runs.call (Runs.call .ret)

/-- Bodies that are no order are parked exactly when the interpreter reads them. -/
theorem unmappable_parked_iff (rt : Runtime) (body : String) :
    UnmappableParked rt body ↔ Readable rt body := by
  rw [← permanent_orderOf_iff]
  constructor
  · intro parked
    exact parked.1
  · intro permanent
    refine ⟨permanent, ?_⟩
    intro unmappable settings record same first
    cases failed : orderOf rt body with
    | ok order => exact absurd failed (unmappable order)
    | error exc =>
        obtain ⟨reason, detail, rfl, given⟩ := reason_orderOf permanent failed
        exact parks_of_permanent settings (same ▸ failed) given

/-- A number whose exponent does not fit, in an event that has nothing else. -/
def farExponent : String := "\x7b\"amount\": 1e1000000000000000000\x7d"

def farRecord : Record where
  messageId := "m1"
  receiptHandle := ⟨"m1", 1⟩
  body := farExponent
  approximateReceiveCount := some 1
  messageAttributes := []
  eventSource := .main

def standard : Settings := ⟨"/relay", 60, 900, 5000⟩

theorem orderOf_farExponent (printable : Char → Bool) :
    orderOf ⟨printable, 1000⟩ farExponent =
      .error (.other "InvalidOperation" "[<class 'decimal.InvalidOperation'>]") := by
  with_unfolding_all rfl

theorem orderOf_empty (printable : Char → Bool) : orderOf ⟨printable, 1000⟩ "" =
    .error (.permanentError "malformed_json" "Expecting value: line 1 column 1 (char 0)") := by
  with_unfolding_all rfl

theorem orderOf_letter (printable : Char → Bool) : orderOf ⟨printable, 1000⟩ "x" =
    .error (.permanentError "malformed_json" "Expecting value: line 1 column 1 (char 0)") := by
  with_unfolding_all rfl

/-- A body with a far exponent is no order, and its record is retried. -/
theorem farExponent_retried :
    ¬ UnmappableParked ⟨fun _ => true, 1000⟩ farExponent ∧
      ∃ calls, SendsSucceed calls ∧
        Runs (handleRecord ⟨fun _ => true, 1000⟩ standard farRecord Chaos.off) calls (.ok .retry) := by
  have failed : orderOf ⟨fun _ => true, 1000⟩ farRecord.body = _ := orderOf_farExponent fun _ => true
  constructor
  · intro parked
    obtain ⟨reason, detail, same⟩ := parked.1 _ failed
    cases same
  · have wait : delay 1 standard.backoffBase standard.backoffCap = .ok 60 := by
      norm_num [delay, standard]
    refine ⟨_, ?_, retries_of_transient failed rfl wait 0⟩
    intro body attributes reply mem
    simp at mem

end Relay.Worker
