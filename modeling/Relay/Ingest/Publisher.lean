import Relay.Data.Batches
import Relay.Events.Event
import Relay.Platform.Interface

/-!
The publisher: events in batches of ten, in order.

`SendMessageBatch` succeeds even when some entries fail and lists those in
`Failed`. The count that `publish` returns stops at the first of them.
-/

namespace Relay.Ingest

open Relay.Json Relay.Effect Relay.Platform Relay.Events Relay.Data

abbrev Event := OpportunityEvent Token

/-- `strconv.Atoi`, within 64 bits. -/
def atoi (s : String) : Option Int :=
  let (neg, digits) := match s.toList with
    | '-' :: digits => (true, digits)
    | '+' :: digits => (false, digits)
    | digits => (false, digits)
  if digits ≠ [] ∧ digits.all Char.isDigit then
    let n : Int := if neg then -(Nat.ofDigitChars 10 digits 0 : Int) else Nat.ofDigitChars 10 digits 0
    if -2 ^ 63 ≤ n ∧ n < 2 ^ 63 then some n else none
  else none

/-- `%q` of a text without quotes, backslashes and control characters. -/
def quoted (s : String) : String := "\"" ++ s ++ "\""

inductive PublishError where
  | sendBatch (message : String)
  | unexpectedEntryId (id : String)
  | entryFailed (index : Int) (failure : Sqs.BatchFailure)

def PublishError.text : PublishError → String
  | sendBatch message => "send batch: " ++ message
  | unexpectedEntryId id => "send batch: unexpected entry id " ++ quoted id
  | entryFailed index failure =>
      "send batch: entry " ++ toString index ++ " failed: " ++ failure.code ++ " " ++ failure.message

/-- The entry of an event at this place in its batch. -/
def entry (i : Nat) (ev : Event) : Sqs.Entry := ⟨toString i, marshal ev, [("event_key", ev.eventKey)]⟩

/-- The least index among the failed entries, and its failure. -/
def firstFailed (firstIdx : Int) (first : Sqs.BatchFailure) :
    List Sqs.BatchFailure → Except String (Int × Sqs.BatchFailure)
  | [] => .ok (firstIdx, first)
  | f :: rest =>
      match atoi f.id with
      | none => .error f.id
      | some idx => if idx < firstIdx then firstFailed idx f rest else firstFailed firstIdx first rest

/-- Send the batches, the first of them at `start`. -/
def publishFrom (total start : Nat) : List (List Event) → Act (Int × Option PublishError)
  | [] => pure (total, none)
  | chunk :: rest => do
      match ← Act.sendMessageBatch .main (chunk.mapIdx entry) with
      | .error err => return (start, some (.sendBatch err))
      | .ok out =>
          match out.failed with
          | [] => publishFrom total (start + 10) rest
          | first :: others =>
              match firstFailed chunk.length first (first :: others) with
              | .error id => return (start, some (.unexpectedEntryId id))
              | .ok (idx, f) => return (start + idx, some (.entryFailed (start + idx) f))

/-- Publish the events; how many were sent before the first failure. -/
def publish (evs : List Event) : Act (Int × Option PublishError) :=
  publishFrom evs.length 0 (batches 10 evs)

/-! ### What a batch accepted -/

theorem atoi_toString {i : Nat} (small : i < 2 ^ 63) : atoi (toString i) = some (i : Int) := by
  have chars : (toString i).toList = Nat.toDigits 10 i := by
    rw [Nat.toString_eq_ofList_toDigits, String.toList_ofList]
  have digits : ∀ c ∈ Nat.toDigits 10 i, c.isDigit = true := fun c mem =>
    Nat.isDigit_of_mem_toDigits (by decide) (by decide) mem
  have value : Nat.ofDigitChars 10 (Nat.toDigits 10 i) 0 = i := Nat.ofDigitChars_ten_toDigits
  have bounds : -2 ^ 63 ≤ (i : Int) ∧ (i : Int) < 2 ^ 63 := by omega
  unfold atoi
  rw [chars]
  split
  rename_i neg cs same
  have unsigned : neg = false ∧ cs = Nat.toDigits 10 i := by
    split at same
    · rename_i eq
      cases digits '-' (eq ▸ List.mem_cons_self)
    · rename_i eq
      cases digits '+' (eq ▸ List.mem_cons_self)
    · cases same
      exact ⟨rfl, rfl⟩
  obtain ⟨rfl, rfl⟩ := unsigned
  have all : Nat.toDigits 10 i ≠ [] ∧ (Nat.toDigits 10 i).all Char.isDigit = true :=
    ⟨Nat.toDigits_ne_nil, List.all_eq_true.mpr digits⟩
  simp only [if_pos all, value, Bool.false_eq_true, if_false, if_pos bounds]

/-- No failed entry has a smaller index. -/
theorem firstFailed_le {bound idx : Int} {first f : Sqs.BatchFailure} {failed : List Sqs.BatchFailure}
    (found : firstFailed bound first failed = .ok (idx, f)) :
    idx ≤ bound ∧ ∀ g ∈ failed, ∀ i, atoi g.id = some i → idx ≤ i := by
  induction failed generalizing bound first with
  | nil =>
      cases found
      exact ⟨le_refl _, by simp⟩
  | cons g rest ih =>
      unfold firstFailed at found
      split at found
      · cases found
      · rename_i i parsed
        have both : idx ≤ bound ∧ idx ≤ i ∧ ∀ g ∈ rest, ∀ i, atoi g.id = some i → idx ≤ i := by
          split at found
          · rename_i smaller
            obtain ⟨le, others⟩ := ih found
            exact ⟨by omega, le, others⟩
          · rename_i larger
            obtain ⟨le, others⟩ := ih found
            exact ⟨le, by omega, others⟩
        refine ⟨both.1, fun g' mem i' parsed' => ?_⟩
        rcases List.mem_cons.mp mem with rfl | mem
        · cases parsed.symm.trans parsed'
          exact both.2.1
        · exact both.2.2 g' mem i' parsed'

/-- The entries before the first failed one were accepted. -/
theorem accepts_before {chunk : List Event} (short : chunk.length ≤ 10) {out : Sqs.BatchReply}
    {first f : Sqs.BatchFailure} {idx : Int}
    (found : firstFailed chunk.length first out.failed = .ok (idx, f)) {i : Nat} (before : (i : Int) < idx)
    (ev : Event) : out.accepts (entry i ev) = true := by
  obtain ⟨le, least⟩ := firstFailed_le found
  simp only [Sqs.BatchReply.accepts, entry, decide_eq_true_eq, List.mem_map, not_exists, not_and]
  intro g mem same
  have parsed : atoi g.id = some (i : Int) := by
    rw [same]
    exact atoi_toString (by omega)
  have := least g mem i parsed
  omega

end Relay.Ingest
