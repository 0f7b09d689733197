import Relay.Events.Event
import Relay.Events.Shape
import Relay.Reconciler.Stamps

/-!
The two event builders, on every row of the WON query.

Both build one shape of JSON object (`eventJson`). They may differ in one field:
an account whose name is null has the name `""` in Go, where a null leaves the
zero value of the struct's field, and stays null in Python.
-/

namespace Relay.Events

open Relay.Json Relay.Python Relay.Calendar Relay.Salesforce

variable {N : Type}

/-- A row with this stamp. -/
def stamped (row : Row N) (stamp : Stamp) : Row N := { row with systemModstamp := stamp.text }

/-- The event object that the Go poller writes for a record. -/
def goEvent (record : Value N) (publishedAt : Int) : Option (Value N) :=
  match Opportunity.unmarshal record with
  | .error _ => none
  | .ok o => (fromOpportunity o publishedAt).map OpportunityEvent.json

/-- The event object that the reconciler builds for a row. -/
def pythonEvent (row : Row N) (publishedAt : Int) : Option (Value N) :=
  match Reconciler.fromSalesforce row publishedAt with
  | .error _ => none
  | .ok members => some (.obj members)

/-- Both builders succeed, with the same object. A Python instant counts
microseconds, a Go one nanoseconds. -/
def SameEvent (row : Row N) (publishedAt : Int) : Prop :=
  ∃ event, goEvent row.json publishedAt = some event ∧
    pythonEvent row (publishedAt / 1000) = some event

/-- The object of a row, with the account name of one builder. -/
def eventJson (row : Row N) (seconds publishedAt : Int) (accountName : Option String) : Value N :=
  .obj (eventMembers row (String.ofList (formatMillis (nanosPerSecond * seconds))) (1000 * seconds)
    (String.ofList (formatRFC3339 publishedAt)) accountName)

/-- The account's name, a null one as the empty text. -/
def goAccountName (row : Row N) : Option String := row.account.map fun name => name.getD ""

def pythonAccountName (row : Row N) : Option String := row.account.join

theorem unixMilli_seconds (seconds : Int) : unixMilli (nanosPerSecond * seconds) = 1000 * seconds := by
  rw [unixMilli, nanosPerSecond]
  omega

theorem goEvent_stamped (row : Row N) (stamp : Stamp) (publishedAt : Int) :
    goEvent (stamped row stamp).json publishedAt =
      some (eventJson row stamp.seconds publishedAt (goAccountName row)) := by
  have name : (row.account.map fun name => (⟨name.getD ""⟩ : Account)).map Account.name =
      row.account.map fun name => name.getD "" := by
    cases row.account <;> rfl
  simp only [goEvent, unmarshal_row, fromOpportunity, stamped, parseDateTime_text,
    unixMilli_seconds, name, OpportunityEvent.json, Opportunity.json, Option.map_some]
  rfl

theorem strftime_nanos (publishedAt : Int) :
    strftime (publishedAt / 1000) ++ ['Z'] = formatRFC3339 publishedAt := by
  have same : publishedAt / 1000 / 1000000 = publishedAt / nanosPerSecond := by
    rw [nanosPerSecond]
    omega
  rw [strftime, formatRFC3339, same]

theorem fromSalesforce_stamped (row : Row N) (stamp : Stamp) (publishedAt : Int) :
    Reconciler.fromSalesforce (stamped row stamp) (publishedAt / 1000) =
      if InRange (1000000 * stamp.seconds) then
        .ok (eventMembers row (String.ofList (formatMillis (nanosPerSecond * stamp.seconds)))
          (1000 * stamp.seconds) (String.ofList (formatRFC3339 publishedAt)) (pythonAccountName row))
      else .error (.other "OverflowError" "date value out of range") := by
  have parsed : Reconciler.parseModstamp (stamped row stamp).systemModstamp = _ :=
    Reconciler.parseModstamp_text stamp
  rw [Reconciler.fromSalesforce, parsed]
  split_ifs with inRange
  · simp only [Reconciler.eventOf, stamped, Reconciler.normalised_seconds,
      Reconciler.version_seconds inRange, strftime_nanos, Reconciler.accountName_join]
    rfl
  · rfl

theorem pythonEvent_stamped (row : Row N) (stamp : Stamp) (publishedAt : Int) :
    pythonEvent (stamped row stamp) (publishedAt / 1000) =
      if InRange (1000000 * stamp.seconds) then
        some (eventJson row stamp.seconds publishedAt (pythonAccountName row))
      else none := by
  rw [pythonEvent, fromSalesforce_stamped]
  split_ifs <;> rfl

theorem eventJson_injective {row : Row N} {seconds publishedAt : Int} {a b : Option String}
    (same : eventJson row seconds publishedAt a = eventJson row seconds publishedAt b) : a = b := by
  have texts : (jsonText a : Value N) = jsonText b := by
    simpa [eventJson, eventMembers, dealMembers] using same
  cases a with
  | none => cases b with
    | none => rfl
    | some b => cases texts
  | some a => cases b with
    | none => cases texts
    | some b => exact congrArg some (Value.str.inj texts)

/-- Go and Python have one account name, unless the account has a null one. -/
theorem accountName_iff (row : Row N) :
    goAccountName row = pythonAccountName row ↔ row.account ≠ some none := by
  rcases account : row.account with _ | _ | name <;> simp [goAccountName, pythonAccountName, account]

/-- The builders agree on a row exactly when it has no account with a null name
and Python can hold the stamp's instant. -/
theorem builders_agree_iff (row : Row N) (stamp : Stamp) (publishedAt : Int) :
    SameEvent (stamped row stamp) publishedAt ↔
      row.account ≠ some none ∧ InRange (1000000 * stamp.seconds) := by
  rw [SameEvent, goEvent_stamped, pythonEvent_stamped, ← accountName_iff]
  constructor
  · rintro ⟨event, go, python⟩
    split_ifs at python with inRange
    · have same := (Option.some.inj go).trans (Option.some.inj python).symm
      exact ⟨eventJson_injective same, inRange⟩
  · rintro ⟨same, inRange⟩
    rw [if_pos inRange, same]
    exact ⟨_, rfl, rfl⟩

/-- 2026-09-15T09:00:00 in UTC. -/
def september : Stamp :=
  ⟨⟨⟨2026, 9, 15⟩, 9, 0, 0⟩, .plain Reconciler.utcOffset, by decide, by decide⟩

/-- A won deal whose parent account's name is null. -/
def namelessAccount : Row N :=
  ⟨"006A00000000001AAA", some "Renewal", some "Closed Won", some (.int 5000), some "2026-09-14",
    some "001A00000000001AAA", some none, ""⟩

/-- On a deal whose account has a null name the builders differ. -/
theorem builders_disagree_nameless :
    ¬ SameEvent (stamped (namelessAccount : Row Token) september) 1789462800000000000 := by
  rw [SameEvent, goEvent_stamped, pythonEvent_stamped]
  rintro ⟨event, go, python⟩
  split_ifs at python
  have same := (Option.some.inj go).trans (Option.some.inj python).symm
  exact (accountName_iff _).mp (eventJson_injective same) rfl

end Relay.Events
