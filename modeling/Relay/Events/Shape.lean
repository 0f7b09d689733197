import Relay.Json.Value
import Relay.Salesforce.Org

/-!
The one shape of an event.

Both builders write an object with the members of `eventMembers`; they are given
the row, its normalised stamp and version, and the account's name.
-/

namespace Relay.Events

open Relay.Json Relay.Salesforce

variable {N M E : Type}

/-- The members of an event's deal. -/
def dealMembers (row : Row N) (normalised : String) (accountName : Option String) :
    List (String × Value N) :=
  [("id", .str row.id), ("name", .str (row.name.getD "")),
    ("stage_name", .str (row.stageName.getD "")), ("amount", jsonNumber row.amount),
    ("close_date", jsonText row.closeDate), ("account_id", jsonText row.accountId),
    ("account_name", jsonText accountName), ("system_modstamp", .str normalised)]

/-- The members of an event. -/
def eventMembers (row : Row N) (normalised : String) (version : Int) (publishedAt : String)
    (accountName : Option String) : List (String × Value N) :=
  [("schema", .str "relay.opportunity.v1"), ("event_key", .str (row.id ++ ":" ++ normalised)),
    ("version", .int version), ("opportunity", .obj (dealMembers row normalised accountName)),
    ("published_at", .str publishedAt)]

theorem decode_jsonText (g : Int → Except E (Value M)) (f : N → Except E (Value M))
    (text : Option String) : (jsonText text).decode g f = .ok (jsonText text) := by
  cases text <;> rfl

/-- Decoding an event decodes its amount and its version. -/
theorem decode_event (g : Int → Except E (Value M)) (f : N → Except E (Value M)) (row : Row N)
    (normalised : String) {version : Int} (publishedAt : String) (accountName : Option String)
    {amount : Except E (Option (Number M))} (versions : g version = .ok (.int version))
    (amounts : (jsonNumber row.amount).decode g f = amount.map jsonNumber) :
    (Value.obj (eventMembers row normalised version publishedAt accountName)).decode g f =
      amount.map fun amount => Value.obj
        (eventMembers (row.withAmount amount) normalised version publishedAt accountName) := by
  have deal : decodeMembers g f (dealMembers row normalised accountName) =
      amount.map fun amount => dealMembers (row.withAmount amount) normalised accountName := by
    simp only [dealMembers, decodeMembers, decode_jsonText, amounts, Value.decode, Row.withAmount]
    cases amount <;> rfl
  simp only [eventMembers, Value.decode, decodeMembers, versions, deal]
  cases amount with
  | error e => rfl
  | ok amount =>
      simp only [Except.map]
      rw [dictOf_of_nodup (by simp), dictOf_of_nodup (by simp [dealMembers])]
      rfl

end Relay.Events
