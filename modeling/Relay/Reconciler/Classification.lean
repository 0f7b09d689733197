import Relay.Effect.Calls
import Relay.Effect.Trace
import Relay.Reconciler.Accusations
import Relay.Reconciler.Repair

/-!
A comparison is a complete and disjoint classification.

What a won deal adds to a report depends on nothing but its row and the stored
version (`dealDrift`, `dealEvent`), so the loop over the rows adds the entries of
the rows in their order. The orphans are the other ids, so no id has two entries.
-/

namespace Relay.Reconciler

open Relay.Json Relay.Python Relay.Platform Relay.Effect Relay.Salesforce Relay.Worker

section Keyed

variable {α β κ : Type} [DecidableEq κ] {f : α → Option β} {key : α → κ} {keyOf : β → κ}

omit [DecidableEq κ] in
/-- The keys of what a list yields are among its own, in their order. -/
theorem sublist_keys (keyed : ∀ a b, f a = some b → keyOf b = key a) (as : List α) :
    ((as.filterMap f).map keyOf).Sublist (as.map key) := by
  induction as with
  | nil => exact .slnil
  | cons a rest ih =>
      rw [List.filterMap_cons]
      cases value : f a with
      | none => exact ih.cons _
      | some b =>
          rw [List.map_cons, List.map_cons, keyed a b value]
          exact ih.cons_cons _

theorem filter_of_absent (keyed : ∀ a b, f a = some b → keyOf b = key a) {as : List α} {k : κ}
    (absent : k ∉ as.map key) : (as.filterMap f).filter (keyOf · = k) = [] := by
  rw [List.filter_eq_nil_iff]
  intro b mem same
  have same : keyOf b = k := by simpa using same
  exact absent ((sublist_keys keyed as).subset (List.mem_map.mpr ⟨b, mem, same⟩))

/-- What one element of a list with distinct keys yields. -/
theorem filter_of_mem (keyed : ∀ a b, f a = some b → keyOf b = key a) {as : List α}
    (distinct : (as.map key).Nodup) {a : α} (mem : a ∈ as) :
    (as.filterMap f).filter (keyOf · = key a) = (f a).toList := by
  induction as with
  | nil => cases mem
  | cons first rest ih =>
      obtain ⟨fresh, others⟩ := List.nodup_cons.mp distinct
      have split : (first :: rest).filterMap f = (f first).toList ++ rest.filterMap f := by
        rw [List.filterMap_cons]
        cases f first <;> rfl
      rw [split, List.filter_append]
      rcases List.mem_cons.mp mem with rfl | mem
      · rw [filter_of_absent keyed fresh, List.append_nil, List.filter_eq_self]
        intro b yielded
        simpa using keyed a b (Option.mem_toList.mp yielded)
      · have apart : key first ≠ key a := fun same => fresh (same ▸ List.mem_map_of_mem mem)
        have none_ : (f first).toList.filter (keyOf · = key a) = [] := by
          rw [List.filter_eq_nil_iff]
          intro b yielded
          simpa [keyed first b (Option.mem_toList.mp yielded)] using apart
        rw [none_, List.nil_append, ih others mem]

end Keyed

/-- The kinds that are repaired. -/
def DriftKind.repaired : DriftKind → Bool
  | missingOrder | staleOrder => true
  | invalidInSource | erpAhead | notFound | notWon => false

/-- The entries of one deal. -/
def Report.entries (report : Report) (id : String) : List Drift :=
  report.drift.filter fun drift => drift.opportunityId = id

section Deals

variable (rt : Runtime) (orderVersions : Versions) (now grace : Int)

/-- The entry of a deal that is out of grace. -/
def eventDrift (row : Row PyNum) (stamp : Int) : Option Drift :=
  match orderVersions.lookup row.id with
  | none =>
      match toOrder rt (eventOf row stamp now) with
      | .error (.permanentError reason _) => some ⟨.invalidInSource, row.id, reason⟩
      | .error _ => none
      | .ok _ => some ⟨.missingOrder, row.id, ""⟩
  | some stored =>
      if stored < version stamp then some ⟨.staleOrder, row.id, versionsText stored "<" (version stamp)⟩
      else if version stamp < stored then
        some ⟨.erpAhead, row.id, versionsText stored ">" (version stamp)⟩
      else none

/-- The entry of a won deal. -/
def dealDrift (row : Row PyNum) : Option Drift :=
  match parseModstamp row.systemModstamp with
  | .error _ => none
  | .ok stamp => if now - grace < stamp then none else eventDrift rt orderVersions now row stamp

/-- The event that repairs a won deal. -/
def dealEvent (row : Row PyNum) : Option (List (String × Obj)) :=
  if (dealDrift rt orderVersions now grace row).any (·.kind.repaired) then
    (fromSalesforce row now).toOption
  else none

variable {rt orderVersions now grace}

theorem eventDrift_id {row : Row PyNum} {stamp : Int} {drift : Drift}
    (entry : eventDrift rt orderVersions now row stamp = some drift) :
    drift.opportunityId = row.id ∧ ¬ Accuses drift := by
  unfold eventDrift at entry
  split at entry
  · split at entry
    · cases entry
      exact ⟨rfl, by simp [Accuses]⟩
    · cases entry
    · cases entry
      exact ⟨rfl, by simp [Accuses]⟩
  · split at entry
    · cases entry
      exact ⟨rfl, by simp [Accuses]⟩
    · split at entry
      · cases entry
        exact ⟨rfl, by simp [Accuses]⟩
      · cases entry

theorem dealDrift_id {row : Row PyNum} {drift : Drift}
    (entry : dealDrift rt orderVersions now grace row = some drift) :
    drift.opportunityId = row.id ∧ ¬ Accuses drift := by
  unfold dealDrift at entry
  split at entry
  · cases entry
  · split at entry
    · cases entry
    · exact eventDrift_id entry

theorem length_eventDrift {row : Row PyNum} {stamp : Int} :
    (eventDrift rt orderVersions now row stamp).toList.length =
      if orderVersions.lookup row.id = some (version stamp) then 0 else 1 := by
  unfold eventDrift
  cases orderVersions.lookup row.id with
  | none =>
      cases mapped : toOrder rt (eventOf row stamp now) with
      | error exc =>
          obtain ⟨reason, detail, rfl⟩ := permanent_toOrder rt _ exc mapped
          rfl
      | ok order => rfl
  | some stored =>
      dsimp only
      split
      · rw [if_neg (by simp; omega)]
        rfl
      · split
        · rw [if_neg (by simp; omega)]
          rfl
        · rw [if_pos (by simp; omega)]
          rfl

/-- What a deal adds to the report. -/
theorem checkDeal_adds {report report' : Report} {row : Row PyNum}
    (checked : checkDeal rt orderVersions now grace report row = .ok report') :
    report'.drift = report.drift ++ (dealDrift rt orderVersions now grace row).toList ∧
      report'.toEnqueue = report.toEnqueue ++ (dealEvent rt orderVersions now grace row).toList := by
  cases checks_of_checkDeal checked with
  | inFlight parsed inGrace => simp [dealEvent, dealDrift, parsed, inGrace]
  | invalid parsed outOfGrace stored mapped =>
      simp [dealEvent, dealDrift, eventDrift, parsed, not_lt.mpr outOfGrace, stored, mapped,
        Report.counted, Report.add, DriftKind.repaired]
  | missing parsed outOfGrace stored mapped =>
      simp [dealEvent, dealDrift, eventDrift, fromSalesforce, parsed, not_lt.mpr outOfGrace, stored,
        mapped, Report.counted, Report.add, Report.enqueue, DriftKind.repaired, Except.toOption]
  | stale parsed outOfGrace stored older =>
      simp [dealEvent, dealDrift, eventDrift, fromSalesforce, parsed, not_lt.mpr outOfGrace, stored,
        older, Report.counted, Report.add, Report.enqueue, DriftKind.repaired, Except.toOption]
  | ahead parsed outOfGrace stored newer =>
      simp [dealEvent, dealDrift, eventDrift, parsed, not_lt.mpr outOfGrace, stored, newer, not_lt.mpr newer.le,
        Report.counted, Report.add, DriftKind.repaired]
  | agrees parsed outOfGrace stored =>
      simp [dealEvent, dealDrift, eventDrift, parsed, not_lt.mpr outOfGrace, stored, Report.counted]

/-- What the deals add to the report. -/
theorem checkDeals_adds {report report' : Report} {rows : List (Row PyNum)}
    (checked : checkDeals rt orderVersions now grace report rows = .ok report') :
    report'.drift = report.drift ++ rows.filterMap (dealDrift rt orderVersions now grace) ∧
      report'.toEnqueue = report.toEnqueue ++ rows.filterMap (dealEvent rt orderVersions now grace) := by
  induction rows generalizing report with
  | nil =>
      cases checked
      simp
  | cons row rest ih =>
      rw [checkDeals] at checked
      split at checked
      · cases checked
      · rename_i report₁ first
        obtain ⟨drift, toEnqueue⟩ := checkDeal_adds first
        obtain ⟨drift', toEnqueue'⟩ := ih checked
        rw [drift', drift, toEnqueue', toEnqueue, List.append_assoc, List.append_assoc,
          List.filterMap_cons, List.filterMap_cons]
        constructor
        · cases dealDrift rt orderVersions now grace row <;> rfl
        · cases dealEvent rt orderVersions now grace row <;> rfl

end Deals

/-! ### The report -/

theorem orphanDrift_id (rt : Runtime) (found : Found) (id : String) :
    (orphanDrift rt found id).opportunityId = id ∧ Accuses (orphanDrift rt found id) := by
  unfold orphanDrift
  split
  · exact ⟨rfl, .inr rfl⟩
  · exact ⟨rfl, .inl rfl⟩

variable {rt : Runtime} {wonDeals : List (Row PyNum)} {orderVersions : Versions} {now grace : Int}

/-- A report of the entries and events of the deals, and of the entries of the orphans. -/
structure Compiled (rt : Runtime) (wonDeals : List (Row PyNum)) (orderVersions : Versions)
    (now grace : Int) (found : Found) (report : Report) : Prop where
  drift : report.drift = wonDeals.filterMap (dealDrift rt orderVersions now grace) ++
    (orphans orderVersions (wonDeals.map Row.id)).map (orphanDrift rt found)
  toEnqueue : report.toEnqueue = wonDeals.filterMap (dealEvent rt orderVersions now grace)

section Compiled

variable {found : Found} {report : Report}

/-- The entries of a won deal are its own. -/
theorem Compiled.entries_of_won (compiled : Compiled rt wonDeals orderVersions now grace found report)
    (distinct : (wonDeals.map Row.id).Nodup) {row : Row PyNum} (mem : row ∈ wonDeals) :
    report.entries row.id = (dealDrift rt orderVersions now grace row).toList := by
  have deals := filter_of_mem (f := dealDrift rt orderVersions now grace)
    (fun _ _ entry => (dealDrift_id entry).1) distinct mem
  have others : ((orphans orderVersions (wonDeals.map Row.id)).map (orphanDrift rt found)).filter
      (·.opportunityId = row.id) = [] := by
    rw [List.filter_eq_nil_iff]
    intro drift entry
    obtain ⟨id, orphan, rfl⟩ := List.mem_map.mp entry
    rw [(orphanDrift_id rt found id).1, decide_eq_true_eq]
    rintro rfl
    exact (mem_orphans.mp orphan).2.1 (List.mem_map_of_mem mem)
  rw [Report.entries, compiled.drift, List.filter_append, deals, others, List.append_nil]

theorem Compiled.once (compiled : Compiled rt wonDeals orderVersions now grace found report)
    (distinct : (wonDeals.map Row.id).Nodup) (once : (orderVersions.map Prod.fst).Nodup) :
    (report.drift.map Drift.opportunityId).Nodup := by
  have deals := sublist_keys (f := dealDrift rt orderVersions now grace)
    (fun _ _ entry => (dealDrift_id entry).1) wonDeals
  have others : ((orphans orderVersions (wonDeals.map Row.id)).map (orphanDrift rt found)).map
      Drift.opportunityId = orphans orderVersions (wonDeals.map Row.id) := by
    rw [List.map_map]
    exact (List.map_congr_left fun id _ => (orphanDrift_id rt found id).1).trans (List.map_id _)
  rw [compiled.drift, List.map_append, others, List.nodup_append]
  refine ⟨deals.nodup distinct, orphans_nodup once _, ?_⟩
  rintro a ofDeal b orphan rfl
  exact (mem_orphans.mp orphan).2.1 (deals.subset ofDeal)

end Compiled

/-- Every report of a comparison is compiled. -/
theorem returns_compiled (rt : Runtime) (wonDeals : List (Row PyNum)) (orderVersions : Versions)
    (lookupStages : List String → Act (Except Exn Found)) (now grace : Int) :
    Returns (fun result => ∀ report, result = .ok report →
        ∃ found, Compiled rt wonDeals orderVersions now grace found report)
      (compare rt wonDeals orderVersions lookupStages now grace) := by
  unfold compare
  cases checked : checkDeals rt orderVersions now grace (emptyReport orderVersions) wonDeals with
  | error exc => exact fun _ failed => nomatch failed
  | ok report₀ =>
      obtain ⟨drift, toEnqueue⟩ := checkDeals_adds checked
      dsimp only
      split
      · rename_i none_
        rintro report ⟨⟩
        exact ⟨[], by rw [drift, none_]; simp [emptyReport], toEnqueue⟩
      · rename_i id rest some_
        apply Returns.bind (Returns.any _)
        intro answer _
        cases answer with
        | error exc => exact fun _ failed => nomatch failed
        | ok found =>
            rintro report ⟨⟩
            refine ⟨found, ?_, by rw [toEnqueue_reportOrphans, toEnqueue]; rfl⟩
            rw [drift_reportOrphans, drift, some_]
            rfl

end Relay.Reconciler
