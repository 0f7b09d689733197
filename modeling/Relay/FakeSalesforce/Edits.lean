import Relay.FakeSalesforce.Deals

/-!
The writes that the wire format shows.

`Edits` is a write whose payload has stamps of whole milliseconds and amounts within
the doubles: it keeps what is shown (`Edits.shown`). `Bumps` is one that leaves the
stamp to the clock, as a user's edit does. What it changes is stamped at the second
of the clock, so no earlier row appears (`Bumps.rows`).
-/

namespace Relay.FakeSalesforce

open Relay.Python Relay.Numeric Relay.Calendar Relay.Data Relay.Salesforce Relay.Json

/-! ### Payloads -/

/-- What a payload converts to is shown as it is. -/
structure OpportunityData.Plain (data : OpportunityData) : Prop where
  sound : data.Sound
  whole : ∀ value us, data.systemModstamp = some value → value.toDatetime = .ok us → us % 1000 = 0
  finite : ∀ value, data.amount = some (some value) → |value.toDecimal.value| < halfway

/-- The clock of the store: the second of `now`. -/
def clockOf (now : Int) : Int := 1000000 * (now / 1000000)

theorem clockOf_inRange {now : Int} (inside : InRange now) : InRange (clockOf now) := by
  have same : clockOf now / 1000000 = now / 1000000 := by
    rw [clockOf]
    omega
  rwa [InRange, same]

section Payloads

variable {self data : OpportunityData} {oppId : String} {opp : OpportunityRecord} {now stamp : Int}

theorem plain_empty : OpportunityData.empty.Plain where
  sound := sound_empty
  whole _ _ held := by cases held
  finite _ held := by cases held

theorem plain_over (self_ : self.Plain) (data_ : data.Plain) : (self.over data).Plain where
  sound := sound_over self_.sound data_.sound
  whole value us held := (orElse_some held).elim (data_.whole value us) (self_.whole value us)
  finite value held := (orElse_some held).elim (data_.finite value) (self_.finite value)

/-- An amount of a record is the decimal that it was. -/
theorem plain_data (tidy : opp.Tidy oppId) (whole : ∀ us, opp.systemModstamp = some us → us % 1000 = 0)
    (finite : ∀ d, opp.amount = some d → |d.value| < halfway) : opp.data.Plain where
  sound := sound_data tidy
  whole value us held read := by
    obtain ⟨us', stored, -, -⟩ := tidy.stamped
    rw [OpportunityRecord.data, stored] at held
    cases held
    cases read
    exact whole _ stored
  finite value held := by
    cases stored : opp.amount with
    | none =>
        rw [OpportunityRecord.data, stored] at held
        cases held
    | some d =>
        rw [OpportunityRecord.data, stored] at held
        cases held
        exact finite d stored

theorem stampOf_whole {value : Option StampValue}
    (held : ∀ value' us, value = some value' → value'.toDatetime = .ok us → us % 1000 = 0)
    (read : stampOf (clockOf now) value = .ok stamp) : stamp % 1000 = 0 := by
  cases value with
  | none =>
      cases read
      rw [clockOf]
      omega
  | some value => exact held value stamp rfl read

theorem record_finite (plain : data.Plain) (built : data.record oppId stamp = .ok opp) {d : Dec}
    (stored : opp.amount = some d) : |d.value| < halfway := by
  obtain ⟨createdDate, closeDate, -, -, rfl⟩ := record_ok built
  obtain ⟨value, held, rfl⟩ := Option.map_eq_some_iff.mp stored
  refine plain.finite value ?_
  cases there : data.amount with
  | none =>
      rw [there] at held
      cases held
  | some value' =>
      rw [there] at held
      exact congrArg some held

/-- A record is stamped when it is written. -/
theorem record_stamp (built : data.record oppId stamp = .ok opp) :
    opp.systemModstamp = some stamp := by
  obtain ⟨createdDate, closeDate, -, -, rfl⟩ := record_ok built
  rfl

end Payloads

/-! ### The store -/

namespace Store

variable {store : Store} {oppId : String} {opp : OpportunityRecord}

theorem mem_records : opp ∈ store.records ↔ ∃ oppId, (oppId, opp) ∈ store.opportunities := by
  rw [records, List.mem_map]
  constructor
  · rintro ⟨⟨oppId, _⟩, mem, rfl⟩
    exact ⟨oppId, mem⟩
  · rintro ⟨oppId, mem⟩
    exact ⟨_, mem, rfl⟩

theorem mem_records_setOpportunity {opp' : OpportunityRecord} (mem : opp' ∈ (store.setOpportunity oppId opp).records) :
    opp' = opp ∨ opp' ∈ store.records := by
  obtain ⟨id, here⟩ := mem_records.mp mem
  rcases (mem_put store.opportunities_nodup).mp here with same | ⟨there, -⟩
  · exact .inl (congrArg Prod.snd same)
  · exact .inr (mem_records.mpr ⟨id, there⟩)

theorem mem_records_popOpportunity (mem : opp ∈ (store.popOpportunity oppId).records) : opp ∈ store.records := by
  obtain ⟨id, here⟩ := mem_records.mp mem
  exact mem_records.mpr ⟨id, (mem_remove.mp here).1⟩

theorem shown_empty : Store.empty.Shown where
  tidy := tidy_empty
  whole _ mem := absurd mem List.not_mem_nil
  finite _ mem := absurd mem List.not_mem_nil

theorem Shown.setOpportunity (shown : store.Shown) (tidy : opp.Tidy oppId)
    (whole : ∀ us, opp.systemModstamp = some us → us % 1000 = 0)
    (finite : ∀ d, opp.amount = some d → |d.value| < halfway) : (store.setOpportunity oppId opp).Shown where
  tidy := shown.tidy.setOpportunity tidy
  whole opp' mem := by
    rcases mem_records_setOpportunity mem with rfl | mem
    · exact whole
    · exact shown.whole opp' mem
  finite opp' mem := by
    rcases mem_records_setOpportunity mem with rfl | mem
    · exact finite
    · exact shown.finite opp' mem

theorem Shown.data (shown : store.Shown) (found : store.opportunities.lookup oppId = some opp) : opp.data.Plain := by
  have mem := mem_of_lookup found
  have among := mem_records.mpr ⟨oppId, mem⟩
  exact plain_data (shown.tidy.opportunities oppId opp mem) (shown.whole opp among) (shown.finite opp among)

end Store

namespace StoreState

variable {s : StoreState} {now : Int} {data : OpportunityData}

/-- An upsert that does not raise: what it stores. -/
theorem upsertOpportunity_stored (shown : s.store.Shown) (plain : data.Plain) (inside : InRange now) :
    (s.upsertOpportunity (clockOf now) data).2.store = s.store ∨
      ∃ oppId opp, (s.upsertOpportunity (clockOf now) data).2.store = s.store.setOpportunity oppId opp ∧
        opp.Tidy oppId ∧ (∀ us, opp.systemModstamp = some us → us % 1000 = 0) ∧
        (∀ d, opp.amount = some d → |d.value| < halfway) ∧
        (data.systemModstamp = none → opp.systemModstamp = some (clockOf now)) := by
  rcases upsertOpportunity_cases (clockOf now) data s with
    ⟨exc, -, same⟩ | ⟨oppId, stamp, opp, -, given, stamped, built, -, same⟩
  · exact .inl same
  · have under : (((s.store.opportunities.lookup oppId).map OpportunityRecord.data).getD .empty).Plain := by
      cases found : s.store.opportunities.lookup oppId with
      | none => exact plain_empty
      | some existing => exact shown.data found
    have merged := plain_over under plain
    have inRange := stampOf_inRange (clockOf_inRange inside) plain.sound.stamped stamped
    refine .inr ⟨oppId, opp, same, record_tidy merged.sound given inRange built, ?_, fun d stored =>
      record_finite merged built stored, ?_⟩
    · intro us stored
      rw [record_stamp built] at stored
      cases stored
      exact stampOf_whole plain.whole stamped
    · intro none_
      rw [none_] at stamped
      cases stamped
      exact record_stamp built

theorem upsertOpportunity_shown (shown : s.store.Shown) (plain : data.Plain) (inside : InRange now) :
    (s.upsertOpportunity (clockOf now) data).2.store.Shown := by
  rcases upsertOpportunity_stored shown plain inside with same | ⟨oppId, opp, same, tidy, whole, finite, -⟩
  · rw [same]
    exact shown
  · rw [same]
    exact shown.setOpportunity tidy whole finite

/-- The payload of an edit. -/
theorem plain_edit {oppId : String} {opp : OpportunityRecord} {changes : OpportunityData}
    {systemModstamp : Option StampValue} (shown : s.store.Shown)
    (found : s.store.opportunities.lookup oppId = some opp) (plain : changes.Plain)
    (stamped : ∀ us, systemModstamp = some (.datetime us) → InRange us)
    (whole : ∀ value us, systemModstamp = some value → value.toDatetime = .ok us → us % 1000 = 0) :
    ({ opp.data.over changes with id := some oppId, systemModstamp := systemModstamp } : OpportunityData).Plain := by
  have merged := plain_over (shown.data found) plain
  exact ⟨⟨stamped, merged.sound.created, merged.sound.closes⟩, whole, merged.finite⟩

theorem upsertAccount_store (data : AccountData) (s : StoreState) :
    ∃ account : AccountRecord, account.id = some (s.idFor "001" data.id).1 ∧
      (s.upsertAccount data).2.store = s.store.setAccount (s.idFor "001" data.id).1 account := by
  obtain ⟨-, same⟩ := idFor_spec "001" data.id s
  obtain ⟨accountId, s₁, identified⟩ : ∃ accountId s₁, s.idFor "001" data.id = (accountId, s₁) := ⟨_, _, rfl⟩
  rw [identified] at same
  simp only [upsertAccount, identified]
  rw [same]
  exact ⟨_, rfl, rfl⟩

end StoreState

/-! ### Writes at a time -/

/-- One write at a time of the clock, of a payload that is shown as it is. -/
inductive Edits (now : Int) : StoreState → StoreState → Prop where
  | account {s : StoreState} (data : AccountData) : Edits now s (s.upsertAccount data).2
  | upsert {s : StoreState} {data : OpportunityData} : InRange now → data.Plain →
      Edits now s (s.upsertOpportunity (clockOf now) data).2
  | edit {s : StoreState} {oppId : String} {changes : OpportunityData} {systemModstamp : Option StampValue} :
      InRange now → changes.Plain → (∀ us, systemModstamp = some (.datetime us) → InRange us) →
      (∀ value us, systemModstamp = some value → value.toDatetime = .ok us → us % 1000 = 0) →
      Edits now s (s.editOpportunity (clockOf now) oppId changes systemModstamp).2
  | delete {s : StoreState} (oppId : String) : Edits now s (s.deleteOpportunity oppId).2
  | reset {s : StoreState} : Edits now s s.reset

theorem Edits.writes {now : Int} {s s' : StoreState} (edit : Edits now s s') : Writes s s' := by
  cases edit with
  | account data => exact .account data
  | upsert inside plain => exact .upsert (clockOf_inRange inside) plain.sound
  | edit inside plain stamped whole => exact .edit (clockOf_inRange inside) plain.sound stamped
  | delete oppId => exact .delete oppId
  | reset => exact .reset

theorem Edits.shown {now : Int} {s s' : StoreState} (edit : Edits now s s') (shown : s.store.Shown) :
    s'.store.Shown := by
  cases edit with
  | account data =>
      obtain ⟨account, -, same⟩ := StoreState.upsertAccount_store data s
      have tidy := StoreState.upsertAccount_tidy shown.tidy data
      rw [same] at tidy ⊢
      exact ⟨tidy, shown.whole, shown.finite⟩
  | upsert inside plain => exact StoreState.upsertOpportunity_shown shown plain inside
  | @edit oppId changes systemModstamp inside plain stamped whole =>
      rcases StoreState.editOpportunity_cases (clockOf now) oppId changes systemModstamp s with
        ⟨-, same⟩ | ⟨opp, found, same⟩
      · rw [same]
        exact shown
      · rw [same]
        exact StoreState.upsertOpportunity_shown shown (StoreState.plain_edit shown found plain stamped whole) inside
  | delete oppId =>
      exact ⟨shown.tidy.popOpportunity oppId, fun opp mem => shown.whole opp (Store.mem_records_popOpportunity mem),
        fun opp mem => shown.finite opp (Store.mem_records_popOpportunity mem)⟩
  | reset => exact Store.shown_empty

/-! ### Writes that the clock stamps -/

/-- One write that forces no stamp and changes no account of a deal. -/
inductive Bumps (now : Int) : StoreState → StoreState → Prop where
  | account {s : StoreState} {data : AccountData} :
      (∀ opp ∈ s.store.records, opp.accountId.getD "" ≠ (s.idFor "001" data.id).1) → Bumps now s (s.upsertAccount data).2
  | upsert {s : StoreState} {data : OpportunityData} : InRange now → data.Plain → data.systemModstamp = none →
      Bumps now s (s.upsertOpportunity (clockOf now) data).2
  | edit {s : StoreState} {oppId : String} {changes : OpportunityData} : InRange now → changes.Plain →
      Bumps now s (s.editOpportunity (clockOf now) oppId changes none).2
  | delete {s : StoreState} (oppId : String) : Bumps now s (s.deleteOpportunity oppId).2
  | reset {s : StoreState} : Bumps now s s.reset

theorem Bumps.edits {now : Int} {s s' : StoreState} (bump : Bumps now s s') : Edits now s s' := by
  cases bump with
  | account => exact .account _
  | upsert inside plain => exact .upsert inside plain
  | edit inside plain => exact .edit inside plain (fun us held => by cases held) fun value us held => by cases held
  | delete oppId => exact .delete oppId
  | reset => exact .reset

section Rows

variable {s s' : StoreState} {now : Int} {d : Deal}

/-- An upsert's row is stamped at the second of the clock, and the others were there. -/
theorem rows_upsertOpportunity {data : OpportunityData} (shown : s.store.Shown) (plain : data.Plain)
    (inside : InRange now) (unforced : data.systemModstamp = none)
    (mem : d ∈ (s.upsertOpportunity (clockOf now) data).2.store.deals) :
    d ∈ s.store.deals ∨ d.stamp = 1000 * clockOf now := by
  rcases StoreState.upsertOpportunity_stored shown plain inside with same | ⟨oppId, opp, same, -, -, -, stamped⟩
  · rw [same] at mem
    exact .inl mem
  · rw [same] at mem
    obtain ⟨opp', here, rfl⟩ := List.mem_map.mp mem
    rcases Store.mem_records_setOpportunity here with rfl | there
    · right
      simp only [Deal.stamp, Store.dealOf, stamped unforced, Option.getD_some, clockOf]
      omega
    · exact .inl (List.mem_map.mpr ⟨opp', there, rfl⟩)

/-- **No row appears late**: after a write every row was there before or is stamped at the second of
the clock. -/
theorem Bumps.rows (bump : Bumps now s s') (shown : s.store.Shown) (mem : d ∈ s'.store.deals) :
    d ∈ s.store.deals ∨ d.stamp = 1000 * clockOf now := by
  cases bump with
  | @account data unused =>
      obtain ⟨account, -, same⟩ := StoreState.upsertAccount_store data s
      rw [same] at mem
      obtain ⟨opp, here, rfl⟩ := List.mem_map.mp mem
      refine .inl (List.mem_map.mpr ⟨opp, here, ?_⟩)
      have other : (s.store.setAccount (s.idFor "001" data.id).1 account).accountOf opp = s.store.accountOf opp :=
        lookup_put_of_ne (unused opp here)
      rw [Store.dealOf, Store.dealOf, other]
  | upsert inside plain unforced => exact rows_upsertOpportunity shown plain inside unforced mem
  | @edit oppId changes inside plain =>
      rcases StoreState.editOpportunity_cases (clockOf now) oppId changes none s with ⟨-, same⟩ | ⟨opp, found, same⟩
      · rw [same] at mem
        exact .inl mem
      · rw [same] at mem
        refine rows_upsertOpportunity shown ?_ inside rfl mem
        exact StoreState.plain_edit shown found plain (fun us held => by cases held) fun value us held => by cases held
  | delete oppId =>
      obtain ⟨opp, here, rfl⟩ := List.mem_map.mp mem
      exact .inl (List.mem_map.mpr ⟨opp, Store.mem_records_popOpportunity here, rfl⟩)
  | reset => exact absurd mem List.not_mem_nil

end Rows

end Relay.FakeSalesforce
