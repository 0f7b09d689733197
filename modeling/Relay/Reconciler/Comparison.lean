import Relay.Effect.Calls
import Relay.Platform.World
import Relay.Reconciler.Messages

/-!
What a comparison enqueues.

`Enqueued` says which event a won deal contributes: that of a missing order whose
event maps, and that of an older stored version. `mem_toEnqueue` lifts it from one
deal to the report of a run.
-/

namespace Relay.Reconciler

open Relay.Json Relay.Python Relay.Platform Relay.Effect Relay.Salesforce Relay.Worker

/-- `SystemModstamp` can be parsed. -/
def Readable (row : Row PyNum) : Prop := ∃ stamp, parseModstamp row.systemModstamp = .ok stamp

/-- The event that a deal contributes to `to_enqueue`. -/
inductive Enqueued (rt : Runtime) (orderVersions : Versions) (now grace : Int) (row : Row PyNum) :
    List (String × Obj) → Prop where
  | missing {stamp : Int} {order : Erp.Order} : parseModstamp row.systemModstamp = .ok stamp →
      stamp ≤ now - grace → orderVersions.lookup row.id = none →
      toOrder rt (eventOf row stamp now) = .ok order →
      Enqueued rt orderVersions now grace row (eventOf row stamp now)
  | stale {stamp stored : Int} : parseModstamp row.systemModstamp = .ok stamp →
      stamp ≤ now - grace → orderVersions.lookup row.id = some stored → stored < version stamp →
      Enqueued rt orderVersions now grace row (eventOf row stamp now)

section Deals

variable {rt : Runtime} {orderVersions : Versions} {now grace : Int}

/-- One deal. -/
theorem mem_checkDeal {report report' : Report} {row : Row PyNum}
    (checked : checkDeal rt orderVersions now grace report row = .ok report')
    (event : List (String × Obj)) :
    event ∈ report'.toEnqueue ↔
      event ∈ report.toEnqueue ∨ Enqueued rt orderVersions now grace row event := by
  -- The stamp decides which event it is, and with the stored version whether it is one.
  have same : ∀ {stamp}, parseModstamp row.systemModstamp = .ok stamp →
      Enqueued rt orderVersions now grace row event → event = eventOf row stamp now := by
    intro stamp parsed enqueued
    cases enqueued with
    | missing parsed' | stale parsed' =>
        cases parsed.symm.trans parsed'
        rfl
  cases checks_of_checkDeal checked with
  | inFlight parsed inGrace =>
      refine ⟨.inl, fun mem => mem.resolve_right fun enqueued => ?_⟩
      cases enqueued with
      | missing parsed' outOfGrace | stale parsed' outOfGrace =>
          cases parsed.symm.trans parsed'
          omega
  | invalid parsed _ stored mapped =>
      refine ⟨.inl, fun mem => mem.resolve_right fun enqueued => ?_⟩
      cases enqueued with
      | missing parsed' _ _ mapped' =>
          cases parsed.symm.trans parsed'
          cases mapped.symm.trans mapped'
      | stale _ _ stored' _ => cases stored.symm.trans stored'
  | missing parsed outOfGrace stored mapped =>
      simp only [Report.enqueue, Report.add, Report.counted, List.mem_append, List.mem_singleton]
      refine or_congr_right ⟨?_, same parsed⟩
      rintro rfl
      exact .missing parsed outOfGrace stored mapped
  | stale parsed outOfGrace stored older =>
      simp only [Report.enqueue, Report.add, Report.counted, List.mem_append, List.mem_singleton]
      refine or_congr_right ⟨?_, same parsed⟩
      rintro rfl
      exact .stale parsed outOfGrace stored older
  | ahead parsed _ stored newer =>
      refine ⟨.inl, fun mem => mem.resolve_right fun enqueued => ?_⟩
      cases enqueued with
      | missing _ _ stored' _ => cases stored.symm.trans stored'
      | stale parsed' _ stored' older =>
          cases parsed.symm.trans parsed'
          cases stored.symm.trans stored'
          omega
  | agrees parsed _ stored =>
      refine ⟨.inl, fun mem => mem.resolve_right fun enqueued => ?_⟩
      cases enqueued with
      | missing _ _ stored' _ => cases stored.symm.trans stored'
      | stale parsed' _ stored' older =>
          cases parsed.symm.trans parsed'
          cases stored.symm.trans stored'
          omega

theorem mem_checkDeals {report report' : Report} {rows : List (Row PyNum)}
    (checked : checkDeals rt orderVersions now grace report rows = .ok report')
    (event : List (String × Obj)) :
    event ∈ report'.toEnqueue ↔
      event ∈ report.toEnqueue ∨ ∃ row ∈ rows, Enqueued rt orderVersions now grace row event := by
  induction rows generalizing report with
  | nil =>
      cases checked
      simp
  | cons row rest ih =>
      rw [checkDeals] at checked
      split at checked
      · cases checked
      · rename_i report₁ first
        rw [ih checked, mem_checkDeal first event, or_assoc]
        simp

/-- Only an unreadable stamp keeps a deal from being checked. -/
theorem exists_checkDeal_iff {report : Report} {row : Row PyNum} :
    (∃ report', checkDeal rt orderVersions now grace report row = .ok report') ↔ Readable row := by
  unfold checkDeal
  split
  · rename_i exc failed
    constructor
    · rintro ⟨report', checked⟩
      cases checked
    · rintro ⟨stamp, parsed⟩
      cases failed.symm.trans parsed
  · rename_i stamp parsed
    refine ⟨fun _ => ⟨stamp, parsed⟩, fun _ => ?_⟩
    split
    · exact ⟨report, rfl⟩
    · rw [fromSalesforce, parsed]
      dsimp only [checkEvent]
      split
      · split
        · exact ⟨_, rfl⟩
        · rename_i exc other mapped
          obtain ⟨reason, detail, rfl⟩ := permanent_toOrder rt _ exc mapped
          exact absurd rfl (other reason detail)
        · exact ⟨_, rfl⟩
      · split
        · exact ⟨_, rfl⟩
        · split
          · exact ⟨_, rfl⟩
          · exact ⟨_, rfl⟩

theorem exists_checkDeals_iff {report : Report} {rows : List (Row PyNum)} :
    (∃ report', checkDeals rt orderVersions now grace report rows = .ok report') ↔
      ∀ row ∈ rows, Readable row := by
  induction rows generalizing report with
  | nil => simp [checkDeals]
  | cons row rest ih =>
      rw [checkDeals, List.forall_mem_cons]
      constructor
      · rintro ⟨report', checked⟩
        split at checked
        · cases checked
        · rename_i report₁ first
          exact ⟨exists_checkDeal_iff.mp ⟨report₁, first⟩, ih.mp ⟨report', checked⟩⟩
      · rintro ⟨readable, others⟩
        obtain ⟨report₁, first⟩ : ∃ report₁, checkDeal rt orderVersions now grace report row = .ok report₁ :=
            exists_checkDeal_iff.mpr readable
        rw [first]
        exact ih.mpr others

end Deals

/-! ### The report -/

/-- Orphans are only reported. -/
theorem toEnqueue_reportOrphans (rt : Runtime) (found : Found) (report : Report) (ids : List String) :
    (reportOrphans rt found report ids).toEnqueue = report.toEnqueue := by
  induction ids generalizing report with
  | nil => rfl
  | cons id rest ih =>
      rw [reportOrphans]
      split
      · rw [ih]
        rfl
      · rw [ih]
        rfl

/-- A comparison enqueues what its deals do. -/
theorem returns_compare (rt : Runtime) (wonDeals : List (Row PyNum)) (orderVersions : Versions)
    (lookupStages : List String → Act (Except Exn Found)) (now grace : Int) :
    Returns (fun result => ∀ report, result = .ok report → ∃ report₀,
        checkDeals rt orderVersions now grace (emptyReport orderVersions) wonDeals = .ok report₀ ∧
        report.toEnqueue = report₀.toEnqueue)
      (compare rt wonDeals orderVersions lookupStages now grace) := by
  unfold compare
  cases checked : checkDeals rt orderVersions now grace (emptyReport orderVersions) wonDeals with
  | error exc => exact fun _ failed => nomatch failed
  | ok report₀ =>
      dsimp only
      split
      · rintro report ⟨⟩
        exact ⟨report₀, rfl, rfl⟩
      · apply Returns.bind (Returns.any _)
        intro found _
        cases found with
        | error exc => exact fun _ failed => nomatch failed
        | ok found =>
            rintro report ⟨⟩
            exact ⟨report₀, rfl, toEnqueue_reportOrphans rt found report₀ _⟩

/-- A run of `compare`, with any lookup in any environment, makes this report. -/
def Reports (rt : Runtime) (wonDeals : List (Row PyNum)) (orderVersions : Versions) (now grace : Int)
    (report : Report) : Prop :=
  ∃ (S : Services) (env : World → World → Prop) (lookupStages : List String → Act (Except Exn Found))
    (w w₁ : World),
    Exec S.Answers env (compare rt wonDeals orderVersions lookupStages now grace) w (.ok report) w₁

variable {rt : Runtime} {wonDeals : List (Row PyNum)} {orderVersions : Versions} {now grace : Int}

theorem Reports.checked {report : Report} (reports : Reports rt wonDeals orderVersions now grace report) :
    ∃ report₀, checkDeals rt orderVersions now grace (emptyReport orderVersions) wonDeals = .ok report₀ ∧
      report.toEnqueue = report₀.toEnqueue := by
  obtain ⟨S, env, lookupStages, w, w₁, run⟩ := reports
  exact (returns_compare rt wonDeals orderVersions lookupStages now grace).exec run report rfl

theorem Reports.readable {report : Report}
    (reports : Reports rt wonDeals orderVersions now grace report) : ∀ row ∈ wonDeals, Readable row := by
  obtain ⟨report₀, checked, -⟩ := reports.checked
  exact exists_checkDeals_iff.mp ⟨report₀, checked⟩

end Relay.Reconciler
