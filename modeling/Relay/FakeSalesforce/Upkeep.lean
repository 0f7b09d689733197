import Mathlib.Data.Finset.Card
import Relay.FakeSalesforce.Cursors
import Relay.FakeSalesforce.Writes

/-!
What every sequence of writes keeps.

`Writes` is one write of the admin API, of those that raise as well. Every record
is stored under its own Id, and every Opportunity was last modified at its own
SystemModstamp, an instant that a `datetime` can hold (`Store.Tidy`). `newId_fresh`
says that the search for a new Id ends, and with one that no record has.
-/

namespace Relay.FakeSalesforce

open Relay.Python Relay.Calendar Relay.Data Relation

/-! ### New Ids -/

namespace Store

theorem taken_iff {store : Store} {id : String} :
    store.taken id = true ↔ id ∈ store.accounts.map Prod.fst ∨ id ∈ store.opportunities.map Prod.fst := by
  have found : ∀ {α : Type} {d : List (String × α)}, (d.lookup id).isSome = true ↔ id ∈ d.map Prod.fst := by
    intro α d
    constructor
    · intro some_
      obtain ⟨value, there⟩ := Option.isSome_iff_exists.mp some_
      exact List.mem_map_of_mem (f := Prod.fst) (mem_of_lookup there)
    · intro mem
      by_contra none_
      obtain ⟨entry, here, rfl⟩ := List.mem_map.mp mem
      have absent := List.lookup_eq_none_iff.mp (Option.not_isSome_iff_eq_none.mp none_) entry here
      simp at absent
  rw [taken, Bool.or_eq_true, found, found]

/-- The Ids of the records. -/
def ids (store : Store) : List String := store.accounts.map Prod.fst ++ store.opportunities.map Prod.fst

theorem taken_iff_mem_ids {store : Store} {id : String} : store.taken id = true ↔ id ∈ store.ids := by
  rw [taken_iff, ids, List.mem_append]

end Store

namespace StoreState

theorem candidate_injective (keyPrefix : String) : Function.Injective (candidate keyPrefix) := by
  intro n n' same
  have texts := congrArg String.toList same
  simp only [candidate, String.toList_append, String.toList_ofList] at texts
  rw [← ofDigitChars_padded 11 n, ← ofDigitChars_padded 11 n', List.append_cancel_left texts]

/-- The search stops at a free number, or every number that it could reach is taken. -/
theorem firstFree_spec (keyPrefix : String) (store : Store) (fuel n : Nat) :
    store.taken (candidate keyPrefix (firstFree keyPrefix store fuel n)) = false ∨
      ∀ i < fuel + 1, store.taken (candidate keyPrefix (n + i)) = true := by
  induction fuel generalizing n with
  | zero =>
      rw [firstFree]
      cases here : store.taken (candidate keyPrefix n) with
      | false => exact .inl rfl
      | true =>
          refine .inr fun i small => ?_
          obtain rfl : i = 0 := by omega
          exact here
  | succ fuel ih =>
      rw [firstFree]
      cases here : store.taken (candidate keyPrefix n) with
      | false => exact .inl here
      | true =>
          refine (ih (n + 1)).imp_right fun all i small => ?_
          cases i with
          | zero => exact here
          | succ i =>
              have next := all i (by omega)
              rwa [Nat.add_right_comm, Nat.add_assoc] at next

/-- More candidates than records are not all taken. -/
theorem not_all_taken (keyPrefix : String) (store : Store) (n : Nat) :
    ¬ ∀ i < store.ids.length + 1, store.taken (candidate keyPrefix (n + i)) = true := by
  intro all
  have among : (Finset.range (store.ids.length + 1)).image (fun i => candidate keyPrefix (n + i)) ⊆ store.ids.toFinset := by
    intro id mem
    obtain ⟨i, small, rfl⟩ := Finset.mem_image.mp mem
    exact List.mem_toFinset.mpr (Store.taken_iff_mem_ids.mp (all i (Finset.mem_range.mp small)))
  have apart : Function.Injective fun i => candidate keyPrefix (n + i) := fun i i' same =>
    Nat.add_left_cancel (candidate_injective keyPrefix same)
  have counted := Finset.card_le_card among
  rw [Finset.card_image_of_injective _ apart, Finset.card_range] at counted
  have most := store.ids.toFinset_card_le
  omega

/-- No record has the new Id. -/
theorem newId_fresh (keyPrefix : String) (s : StoreState) : s.store.taken (s.newId keyPrefix).1 = false := by
  refine (firstFree_spec keyPrefix s.store _ s.ids).resolve_right fun all => ?_
  refine not_all_taken keyPrefix s.store s.ids ?_
  rwa [Store.ids, List.length_append, List.length_map, List.length_map]

theorem candidate_ne_empty {keyPrefix : String} {n : Nat} : candidate keyPrefix n ≠ "" := by
  intro empty
  have texts := congrArg String.toList empty
  simp [candidate] at texts

/-- An Id for a payload is never empty, and only the counter moves. -/
theorem idFor_spec (keyPrefix : String) (id : Option String) (s : StoreState) :
    (s.idFor keyPrefix id).1 ≠ "" ∧ (s.idFor keyPrefix id).2.store = s.store := by
  unfold idFor
  split
  · exact ⟨candidate_ne_empty, rfl⟩
  · split
    · exact ⟨candidate_ne_empty, rfl⟩
    · rename_i given
      exact ⟨given, rfl⟩

end StoreState

/-! ### Records -/

/-- An Opportunity as a write leaves it: under its own Id, with times and a date that Python can
hold, and last modified when it was stamped. -/
structure OpportunityRecord.Tidy (oppId : String) (opp : OpportunityRecord) : Prop where
  named : opp.id = some oppId
  given : oppId ≠ ""
  stamped : ∃ us, opp.systemModstamp = some us ∧ opp.lastModifiedDate = some us ∧ InRange us
  created : ∀ us, opp.createdDate = some us → InRange us
  closes : ∀ d, opp.closeDate = some d → d.Valid ∧ 1 ≤ d.year

structure Store.Tidy (store : Store) : Prop where
  accounts : ∀ id account, (id, account) ∈ store.accounts → account.id = some id ∧ id ≠ ""
  opportunities : ∀ id opp, (id, opp) ∈ store.opportunities → opp.Tidy id

/-- The times and the date of a payload are ones that Python can hold. -/
structure OpportunityData.Sound (data : OpportunityData) : Prop where
  stamped : ∀ us, data.systemModstamp = some (.datetime us) → InRange us
  created : ∀ us, data.createdDate = some (some (.datetime us)) → InRange us
  closes : ∀ d, data.closeDate = some (some (.date d)) → d.Valid ∧ 1 ≤ d.year

/-! ### Conversions -/

theorem fromisoformat_inRange {text : List Char} {us : Int} (read : fromisoformat text = .ok us) : InRange us := by
  unfold fromisoformat at read
  split at read
  · cases read
  · split at read
    · rename_i inside
      cases read
      exact inside
    · cases read

theorem dateFromIsoformat_valid {text : List Char} {d : Date} (read : dateFromIsoformat text = .ok d) :
    d.Valid ∧ 1 ≤ d.year := by
  unfold dateFromIsoformat at read
  split at read
  · cases read
  · split_ifs at read with early month valid
    cases read
    exact ⟨valid, not_lt.mp early⟩

theorem toDatetime_inRange {value : StampValue} {us : Int} (held : ∀ us', value = .datetime us' → InRange us')
    (read : value.toDatetime = .ok us) : InRange us := by
  cases value with
  | text s => exact fromisoformat_inRange read
  | datetime us' =>
      cases read
      exact held _ rfl

theorem stampOf_inRange {clock us : Int} {value : Option StampValue} (now : InRange clock)
    (held : ∀ us', value = some (.datetime us') → InRange us') (read : stampOf clock value = .ok us) : InRange us := by
  cases value with
  | none =>
      cases read
      exact now
  | some value => exact toDatetime_inRange (fun us' same => held us' (by rw [same])) read

theorem toDate_valid {value : DateValue} {d : Date} (held : ∀ d', value = .date d' → d'.Valid ∧ 1 ≤ d'.year)
    (read : value.toDate = .ok d) : d.Valid ∧ 1 ≤ d.year := by
  cases value with
  | text s => exact dateFromIsoformat_valid read
  | date d' =>
      cases read
      exact held _ rfl

/-- A converted value, or null. -/
theorem orNull_some {α β : Type} {convert : α → Except Exn β} {value : Option α} {b : β}
    (read : orNull convert value = .ok (some b)) : ∃ a, value = some a ∧ convert a = .ok b := by
  cases value with
  | none => cases read
  | some a =>
      rw [orNull] at read
      cases converted : convert a with
      | error exc =>
          rw [converted] at read
          cases read
      | ok b' =>
          rw [converted] at read
          cases read
          exact ⟨a, rfl, converted⟩

section Payloads

variable {self data : OpportunityData} {oppId : String} {opp : OpportunityRecord} {clock stamp : Int}

theorem sound_empty : OpportunityData.empty.Sound := ⟨nofun, nofun, nofun⟩

/-- Of two dictionaries, one over the other, a value is that of either. -/
theorem orElse_some {α : Type} {first second : Option α} {a : α} (held : (first <|> second) = some a) :
    first = some a ∨ second = some a := by
  cases first with
  | none => exact .inr held
  | some b => exact .inl held

theorem sound_over (self_ : self.Sound) (data_ : data.Sound) : (self.over data).Sound where
  stamped us held := (orElse_some held).elim (data_.stamped us) (self_.stamped us)
  created us held := (orElse_some held).elim (data_.created us) (self_.created us)
  closes d held := (orElse_some held).elim (data_.closes d) (self_.closes d)

theorem sound_data (tidy : opp.Tidy oppId) : opp.data.Sound where
  stamped us held := by
    obtain ⟨us', stored, -, inside⟩ := tidy.stamped
    rw [OpportunityRecord.data, stored] at held
    cases held
    exact inside
  created us held := by
    cases stored : opp.createdDate with
    | none =>
        rw [OpportunityRecord.data, stored] at held
        cases held
    | some us' =>
        rw [OpportunityRecord.data, stored] at held
        cases held
        exact tidy.created us stored
  closes d held := by
    cases stored : opp.closeDate with
    | none =>
        rw [OpportunityRecord.data, stored] at held
        cases held
    | some d' =>
        rw [OpportunityRecord.data, stored] at held
        cases held
        exact tidy.closes d stored

/-- The record of merged values: its times and its date, and what else it has. -/
theorem record_ok (built : data.record oppId stamp = .ok opp) :
    ∃ createdDate closeDate,
      orNull StampValue.toDatetime (data.createdDate.getD (some (.datetime stamp))) = .ok createdDate ∧
      orNull DateValue.toDate (data.closeDate.getD none) = .ok closeDate ∧
      opp = ⟨some oppId, data.name.getD none, data.accountId.getD none,
        (data.amount.getD none).map AmountValue.toDecimal, closeDate, data.stageName.getD none, some stamp,
        some stamp, createdDate⟩ := by
  unfold OpportunityData.record at built
  cases created : orNull StampValue.toDatetime (data.createdDate.getD (some (.datetime stamp))) with
  | error exc =>
      rw [created] at built
      cases built
  | ok createdDate =>
      cases closes : orNull DateValue.toDate (data.closeDate.getD none) with
      | error exc =>
          rw [created, closes] at built
          cases built
      | ok closeDate =>
          rw [created, closes] at built
          cases built
          exact ⟨createdDate, closeDate, rfl, rfl, rfl⟩

theorem record_tidy (sound : data.Sound) (given : oppId ≠ "") (inside : InRange stamp)
    (built : data.record oppId stamp = .ok opp) : opp.Tidy oppId := by
  obtain ⟨createdDate, closeDate, created, closes, rfl⟩ := record_ok built
  refine ⟨rfl, given, ⟨stamp, rfl, rfl, inside⟩, ?_, ?_⟩
  · rintro us rfl
    obtain ⟨value, from_, read⟩ := orNull_some created
    refine toDatetime_inRange ?_ read
    rintro us' rfl
    cases stored : data.createdDate with
    | none =>
        rw [stored] at from_
        cases from_
        exact inside
    | some value =>
        rw [stored] at from_
        exact sound.created us' (stored.trans (congrArg some from_))
  · rintro d rfl
    obtain ⟨value, from_, read⟩ := orNull_some closes
    refine toDate_valid ?_ read
    rintro d' rfl
    cases stored : data.closeDate with
    | none =>
        rw [stored] at from_
        cases from_
    | some value =>
        rw [stored] at from_
        exact sound.closes d' (stored.trans (congrArg some from_))

end Payloads

/-! ### The store -/

namespace Store

variable {store : Store}

theorem tidy_empty : Store.empty.Tidy where
  accounts _ _ mem := absurd mem List.not_mem_nil
  opportunities _ _ mem := absurd mem List.not_mem_nil

theorem Tidy.setAccount (tidy : store.Tidy) {accountId : String} (given : accountId ≠ "") (name : Option String) :
    (store.setAccount accountId ⟨some accountId, name⟩).Tidy where
  accounts id account mem := by
    rcases (mem_put store.accounts_nodup).mp mem with same | ⟨mem, -⟩
    · cases same
      exact ⟨rfl, given⟩
    · exact tidy.accounts id account mem
  opportunities := tidy.opportunities

theorem Tidy.setOpportunity (tidy : store.Tidy) {oppId : String} {opp : OpportunityRecord} (kept : opp.Tidy oppId) :
    (store.setOpportunity oppId opp).Tidy where
  accounts := tidy.accounts
  opportunities id opp' mem := by
    rcases (mem_put store.opportunities_nodup).mp mem with same | ⟨mem, -⟩
    · cases same
      exact kept
    · exact tidy.opportunities id opp' mem

theorem Tidy.popOpportunity (tidy : store.Tidy) (oppId : String) : (store.popOpportunity oppId).Tidy where
  accounts := tidy.accounts
  opportunities id opp mem := tidy.opportunities id opp (mem_remove.mp mem).1

end Store

namespace StoreState

variable {s : StoreState} {clock : Int} {data : OpportunityData}

/-- What an upsert does: it raises and the records stay, or it stores the record of the payload over
the one that is there. -/
theorem upsertOpportunity_cases (clock : Int) (data : OpportunityData) (s : StoreState) :
    (∃ exc, (s.upsertOpportunity clock data).1 = .error exc ∧ (s.upsertOpportunity clock data).2.store = s.store) ∨
      ∃ oppId stamp opp, oppId = (s.idFor "006" data.id).1 ∧ oppId ≠ "" ∧
        stampOf clock data.systemModstamp = .ok stamp ∧
        ((((s.store.opportunities.lookup oppId).map OpportunityRecord.data).getD .empty).over data).record oppId stamp =
          .ok opp ∧
        (s.upsertOpportunity clock data).1 = .ok opp ∧
        (s.upsertOpportunity clock data).2.store = s.store.setOpportunity oppId opp := by
  obtain ⟨given, same⟩ := idFor_spec "006" data.id s
  obtain ⟨oppId, s₁, identified⟩ : ∃ oppId s₁, s.idFor "006" data.id = (oppId, s₁) := ⟨_, _, rfl⟩
  rw [identified] at given same
  simp only [upsertOpportunity, identified]
  rw [same]
  cases stamped : stampOf clock data.systemModstamp with
  | error exc => exact .inl ⟨exc, rfl, same⟩
  | ok stamp =>
      cases built : ((((s.store.opportunities.lookup oppId).map OpportunityRecord.data).getD .empty).over data).record
          oppId stamp with
      | error exc =>
          simp only [bind, Except.bind, built]
          exact .inl ⟨exc, rfl, same⟩
      | ok opp =>
          refine .inr ⟨oppId, stamp, opp, rfl, given, rfl, built, ?_⟩
          simp only [bind, Except.bind, built, and_self]

theorem upsertOpportunity_tidy (tidy : s.store.Tidy) (sound : data.Sound) (now : InRange clock) :
    (s.upsertOpportunity clock data).2.store.Tidy := by
  rcases upsertOpportunity_cases clock data s with ⟨exc, -, same⟩ | ⟨oppId, stamp, opp, -, given, stamped, built, -, same⟩
  · rw [same]
    exact tidy
  · have under : (((s.store.opportunities.lookup oppId).map OpportunityRecord.data).getD .empty).Sound := by
      cases found : s.store.opportunities.lookup oppId with
      | none => exact sound_empty
      | some existing => exact sound_data (tidy.opportunities oppId existing (mem_of_lookup found))
    rw [same]
    exact tidy.setOpportunity (record_tidy (sound_over under sound) given (stampOf_inRange now sound.stamped stamped) built)

/-- An edit is an upsert, unless there is nothing to edit. -/
theorem editOpportunity_cases (clock : Int) (oppId : String) (changes : OpportunityData)
    (systemModstamp : Option StampValue) (s : StoreState) :
    s.store.opportunities.lookup oppId = none ∧
        s.editOpportunity clock oppId changes systemModstamp = (.error (.other "KeyError" oppId), s) ∨
      ∃ opp, s.store.opportunities.lookup oppId = some opp ∧
        s.editOpportunity clock oppId changes systemModstamp = s.upsertOpportunity clock
          { opp.data.over changes with id := some oppId, systemModstamp := systemModstamp } := by
  unfold editOpportunity
  cases found : s.store.opportunities.lookup oppId with
  | none => exact .inl ⟨rfl, rfl⟩
  | some opp => exact .inr ⟨opp, rfl, rfl⟩

theorem editOpportunity_tidy (tidy : s.store.Tidy) {oppId : String} {changes : OpportunityData}
    {systemModstamp : Option StampValue} (sound : changes.Sound)
    (stamped : ∀ us, systemModstamp = some (.datetime us) → InRange us) (now : InRange clock) :
    (s.editOpportunity clock oppId changes systemModstamp).2.store.Tidy := by
  rcases editOpportunity_cases clock oppId changes systemModstamp s with ⟨-, same⟩ | ⟨opp, found, same⟩
  · rw [same]
    exact tidy
  · have merged := sound_over (sound_data (tidy.opportunities oppId opp (mem_of_lookup found))) sound
    rw [same]
    exact upsertOpportunity_tidy tidy ⟨stamped, merged.created, merged.closes⟩ now

theorem upsertAccount_tidy (tidy : s.store.Tidy) (data : AccountData) : (s.upsertAccount data).2.store.Tidy := by
  obtain ⟨given, same⟩ := idFor_spec "001" data.id s
  obtain ⟨accountId, s₁, identified⟩ : ∃ accountId s₁, s.idFor "001" data.id = (accountId, s₁) := ⟨_, _, rfl⟩
  rw [identified] at given same
  simp only [upsertAccount, identified]
  rw [same]
  exact tidy.setAccount given _

end StoreState

/-! ### Every sequence of writes -/

/-- One write, at a time of the clock and of a payload that Python can hold. The lists of the admin
API and the seed are such writes one after another. -/
inductive Writes : StoreState → StoreState → Prop where
  | account {s : StoreState} (data : AccountData) : Writes s (s.upsertAccount data).2
  | upsert {s : StoreState} {clock : Int} {data : OpportunityData} : InRange clock → data.Sound →
      Writes s (s.upsertOpportunity clock data).2
  | edit {s : StoreState} {clock : Int} {oppId : String} {changes : OpportunityData}
      {systemModstamp : Option StampValue} : InRange clock → changes.Sound →
      (∀ us, systemModstamp = some (.datetime us) → InRange us) →
      Writes s (s.editOpportunity clock oppId changes systemModstamp).2
  | delete {s : StoreState} (oppId : String) : Writes s (s.deleteOpportunity oppId).2
  | reset {s : StoreState} : Writes s s.reset

theorem Writes.tidy {s s' : StoreState} (write : Writes s s') (tidy : s.store.Tidy) : s'.store.Tidy := by
  cases write with
  | account data => exact StoreState.upsertAccount_tidy tidy data
  | upsert now sound => exact StoreState.upsertOpportunity_tidy tidy sound now
  | edit now sound stamped => exact StoreState.editOpportunity_tidy tidy sound stamped now
  | delete oppId => exact tidy.popOpportunity oppId
  | reset => exact Store.tidy_empty

end Relay.FakeSalesforce
