import Relay.Reconciler.App
import Relay.Reconciler.Lookup

/-!
Whom a comparison accuses.

`Reconciles` is one run in the order of its reads: the won deals, the orders, and
the stages of the orders whose deal is not among the won ones. Salesforce may
change at any moment. `Fair` is what its `not_won` and `not_found` entries should
say, and `fair_iff` when they do: nothing looks at the `IsWon` of a record that was
found, and an id that was not asked for counts as not found.
-/

namespace Relay.Reconciler

open Relay.Json Relay.Python Relay.Platform Relay.Effect Relay.Salesforce Relay.Events Relation

/-! ### The entries of a report -/

/-- An entry against the deal of an order. -/
def Accuses (drift : Drift) : Prop := drift.kind = .notWon ∨ drift.kind = .notFound

/-- The entry of an orphan. -/
def orphanDrift (rt : Worker.Runtime) (found : Found) (id : String) : Drift :=
  match found.lookup id with
  | none => ⟨.notFound, id, "deleted in Salesforce"⟩
  | some current => ⟨.notWon, id, "stage is " ++ str rt.printable (dictGet "StageName" current)⟩

theorem drift_reportOrphans (rt : Worker.Runtime) (found : Found) (report : Report) (ids : List String) :
    (reportOrphans rt found report ids).drift = report.drift ++ ids.map (orphanDrift rt found) := by
  induction ids generalizing report with
  | nil => simp [reportOrphans]
  | cons id rest ih =>
      rw [reportOrphans, List.map_cons, orphanDrift]
      cases found.lookup id with
      | none =>
          dsimp only
          rw [ih, Report.add, List.append_assoc]
          rfl
      | some current =>
          dsimp only
          rw [ih, Report.add, List.append_assoc]
          rfl

section Deals

variable {rt : Worker.Runtime} {orderVersions : Versions} {now grace : Int}

/-- A won deal is not accused. -/
theorem accuses_checkDeal {report report' : Report} {row : Row PyNum}
    (checked : checkDeal rt orderVersions now grace report row = .ok report') {drift : Drift}
    (accuses : Accuses drift) (mem : drift ∈ report'.drift) : drift ∈ report.drift := by
  have other : ∀ kind id detail, kind ≠ .notWon → kind ≠ .notFound →
      drift ∈ report.drift ++ [⟨kind, id, detail⟩] → drift ∈ report.drift := by
    intro kind id detail notWon notFound mem
    rcases List.mem_append.mp mem with mem | mem
    · exact mem
    · obtain rfl := List.mem_singleton.mp mem
      rcases accuses with same | same
      · exact absurd same notWon
      · exact absurd same notFound
  cases checks_of_checkDeal checked with
  | inFlight => exact mem
  | invalid => exact other _ _ _ (by decide) (by decide) mem
  | missing => exact other _ _ _ (by decide) (by decide) mem
  | stale => exact other _ _ _ (by decide) (by decide) mem
  | ahead => exact other _ _ _ (by decide) (by decide) mem
  | agrees => exact mem

theorem accuses_checkDeals {report report' : Report} {rows : List (Row PyNum)}
    (checked : checkDeals rt orderVersions now grace report rows = .ok report') {drift : Drift}
    (accuses : Accuses drift) (mem : drift ∈ report'.drift) : drift ∈ report.drift := by
  induction rows generalizing report with
  | nil =>
      cases checked
      exact mem
  | cons row rest ih =>
      rw [checkDeals] at checked
      split at checked
      · cases checked
      · rename_i report₁ first
        exact accuses_checkDeal first accuses (ih checked)

end Deals

theorem mem_orphans {orderVersions : Versions} {wonIds : List String} {id : String} :
    id ∈ orphans orderVersions wonIds ↔
      id ∈ orderVersions.map Prod.fst ∧ id ∉ wonIds ∧ isSmoke id = false := by
  rw [orphans, List.mem_insertionSort, List.mem_filter]
  simp

/-- The order of a won deal is no orphan. -/
theorem orphans_won {row : Row PyNum} {stored : Int} : orphans [(row.id, stored)] ([row].map Row.id) = [] := by
  refine List.eq_nil_iff_forall_not_mem.mpr fun id mem => ?_
  obtain ⟨scanned, notWon, -⟩ := mem_orphans.mp mem
  exact notWon scanned

theorem orphans_nodup {orderVersions : Versions} (once : (orderVersions.map Prod.fst).Nodup)
    (wonIds : List String) : (orphans orderVersions wonIds).Nodup :=
  (List.perm_insertionSort _ _).nodup_iff.mpr (once.filter _)

/-! ### Runs -/

/-- A `not_won` entry names a deal that was found not won, and a `not_found` entry
one that was asked for and that did not exist then. -/
structure Fair (report : Report) (reads : List (Soql × List Deal)) : Prop where
  notWon : ∀ drift ∈ report.drift, drift.kind = .notWon → ∃ org,
    Asked reads drift.opportunityId org ∧ ∃ d ∈ org, d.id = drift.opportunityId ∧ d.isWon = false
  notFound : ∀ drift ∈ report.drift, drift.kind = .notFound → ∃ org,
    Asked reads drift.opportunityId org ∧ ∀ d ∈ org, d.id ≠ drift.opportunityId

/-- The won query, then the order scan, whatever versions it gave, then the lookup. -/
inductive Reconciles (S : Services) (rt : Worker.Runtime) (now grace : Int) :
    World → List (Row PyNum) → Versions → Report → World → Prop where
  | run {w w₁ w₂ w₃ : World} {records : List Obj} {wonDeals : List (Row PyNum)}
      {orderVersions : Versions} {report : Report} :
      Exec S.Answers Elsewhere (queryAll .won) w (.ok records) w₁ → readRows records = .ok wonDeals →
      ReflTransGen Elsewhere w₁ w₂ →
      Exec S.Answers Elsewhere (compare rt wonDeals orderVersions stageLookup now grace) w₂
        (.ok report) w₃ →
      Reconciles S rt now grace w wonDeals orderVersions report w₃

/-- The reads between two worlds of a run. -/
def readsSince (w w' : World) : List (Soql × List Deal) := w'.reads.drop w.reads.length

section Runs

variable {S : Services} {rt : Worker.Runtime} {now grace : Int} {w w' : World}
  {wonDeals : List (Row PyNum)} {orderVersions : Versions} {report : Report}

/-- The accusations of a comparison are the entries of the orphans, looked up. -/
theorem accusations_compare (once : (orderVersions.map Prod.fst).Nodup)
    (distinct : (w.org.map Deal.id).Nodup)
    (run : Exec S.Answers Elsewhere (compare rt wonDeals orderVersions stageLookup now grace) w
      (.ok report) w') :
    ∃ found reads, w'.reads = w.reads ++ reads ∧
      Looked ((orphans orderVersions (wonDeals.map Row.id)).filter isSfId) [] found reads ∧
      ∀ drift, Accuses drift → (drift ∈ report.drift ↔
        ∃ id ∈ orphans orderVersions (wonDeals.map Row.id), drift = orphanDrift rt found id) := by
  unfold compare at run
  split at run
  · obtain ⟨failed, -⟩ := Exec.of_ret run
    cases failed
  · rename_i report₀ checked
    have clean : ∀ drift, Accuses drift → drift ∉ report₀.drift := by
      intro drift accuses mem
      cases accuses_checkDeals checked accuses mem
    split at run
    · rename_i empty
      obtain ⟨done, rfl⟩ := Exec.of_ret run
      cases done
      rw [empty]
      refine ⟨[], [], (List.append_nil _).symm, looked_nil [], fun drift accuses => ?_⟩
      simpa using clean drift accuses
    · rename_i id rest nonempty
      obtain ⟨answer, w₁, lookup_, run⟩ := Exec.of_bind run
      cases answer with
      | error exc =>
          obtain ⟨failed, -⟩ := Exec.of_ret run
          cases failed
      | ok found =>
          obtain ⟨done, rfl⟩ := Exec.of_ret run
          cases done
          have onceIds := orphans_nodup once (wonDeals.map Row.id)
          rw [nonempty] at onceIds ⊢
          obtain ⟨reads, more, looked⟩ := looked_stageLookup onceIds distinct lookup_
          refine ⟨found, reads, more, looked, fun drift accuses => ?_⟩
          rw [drift_reportOrphans, List.mem_append, List.mem_map]
          simp only [clean drift accuses, false_or, eq_comm]

/-- The accusations of a run are fair exactly when the id of every order without a
won deal is one that may be asked for, and no such deal is won when it is read. -/
theorem fair_iff (once : (orderVersions.map Prod.fst).Nodup) (distinct : (w.org.map Deal.id).Nodup)
    (run : Reconciles S rt now grace w wonDeals orderVersions report w') :
    Fair report (readsSince w w') ↔
      ∀ id ∈ orderVersions.map Prod.fst, id ∉ wonDeals.map Row.id → isSmoke id = false →
        isSfId id = true ∧
          ∀ org, Asked (readsSince w w') id org → ∀ d ∈ org, d.id = id → d.isWon = false := by
  obtain ⟨won, -, moves, compared⟩ := run
  rename_i w₁ w₂ records
  obtain ⟨-, -, -, read, distinct₁⟩ := queried distinct won
  obtain ⟨same, distinct₂⟩ := elsewhere_moves distinct₁ moves
  obtain ⟨found, reads, more, looked, entries⟩ := accusations_compare once distinct₂ compared
  have since : readsSince w w' = (.won, w₁.org) :: reads := by
    rw [readsSince, more, same, read, List.append_assoc, List.drop_left]
    rfl
  have asked_iff : ∀ id org, Asked (readsSince w w') id org ↔ Asked reads id org := by
    intro id org
    simp [Asked, since]
  have entry : ∀ id, id ∈ orderVersions.map Prod.fst → id ∉ wonDeals.map Row.id → isSmoke id = false →
      ∀ drift, drift = orphanDrift rt found id → Accuses drift → drift ∈ report.drift :=
    fun id stored notWon notSmoke drift own accuses =>
      (entries drift accuses).mpr ⟨id, mem_orphans.mpr ⟨stored, notWon, notSmoke⟩, own⟩
  constructor
  · intro fair id stored notWon notSmoke
    -- The entry of this id names the org that it was found in, or not.
    cases here : found.lookup id with
    | none =>
        have own : ⟨.notFound, id, "deleted in Salesforce"⟩ = orphanDrift rt found id := by
          rw [orphanDrift, here]
        obtain ⟨org, asked, -⟩ :=
          fair.notFound _ (entry id stored notWon notSmoke _ own (.inr rfl)) rfl
        have asked := (asked_iff id org).mp asked
        refine ⟨(List.mem_filter.mp ((looked.asked id).mp ⟨org, asked⟩)).2, ?_⟩
        intro org' asked' d mem same
        have gone := looked.shown id org' ((asked_iff id org').mp asked')
        rw [here] at gone
        exact absurd same (recordOf_eq_none.mp gone.symm d mem)
    | some current =>
        have own : ⟨.notWon, id, "stage is " ++ str rt.printable (dictGet "StageName" current)⟩ =
            orphanDrift rt found id := by
          rw [orphanDrift, here]
        obtain ⟨org, asked, d₀, mem₀, same₀, lost⟩ :=
          fair.notWon _ (entry id stored notWon notSmoke _ own (.inl rfl)) rfl
        have asked := (asked_iff id org).mp asked
        refine ⟨(List.mem_filter.mp ((looked.asked id).mp ⟨org, asked⟩)).2, ?_⟩
        intro org' asked' d mem same
        have asked' := (asked_iff id org').mp asked'
        have shown₀ := looked.shown id org asked
        have shown := looked.shown id org' asked'
        change d₀.id = id at same₀
        rw [← same₀, recordOf_mem (looked.distinct id org asked) mem₀] at shown₀
        rw [← same, recordOf_mem (looked.distinct id org' asked') mem] at shown
        rw [same₀] at shown₀
        rw [same] at shown
        have records := Option.some.inj (shown.symm.trans shown₀)
        rw [(fields_of_stageMembers records).2, lost]
  · intro healthy
    have orphan : ∀ drift ∈ report.drift, Accuses drift → ∃ id, drift = orphanDrift rt found id ∧
        ∃ org, Asked reads id org ∧ ∀ d ∈ org, d.id = id → d.isWon = false := by
      intro drift mem accuses
      obtain ⟨id, orphan, own⟩ := (entries drift accuses).mp mem
      obtain ⟨stored, notWon, notSmoke⟩ := mem_orphans.mp orphan
      obtain ⟨formed, lost⟩ := healthy id stored notWon notSmoke
      obtain ⟨org, asked⟩ := (looked.asked id).mpr (List.mem_filter.mpr ⟨orphan, formed⟩)
      exact ⟨id, own, org, asked, lost org ((asked_iff id org).mpr asked)⟩
    constructor
    · intro drift mem kind
      obtain ⟨id, own, org, asked, lost⟩ := orphan drift mem (.inl kind)
      cases here : found.lookup id with
      | none =>
          rw [orphanDrift, here] at own
          rw [own] at kind
          cases kind
      | some current =>
          rw [orphanDrift, here] at own
          rw [looked.shown id org asked] at here
          obtain ⟨d, mem, same, -⟩ := recordOf_eq_some here
          rw [own]
          exact ⟨org, (asked_iff id org).mpr asked, d, mem, same, lost d mem same⟩
    · intro drift mem kind
      obtain ⟨id, own, org, asked, lost⟩ := orphan drift mem (.inr kind)
      cases here : found.lookup id with
      | none =>
          rw [orphanDrift, here] at own
          rw [looked.shown id org asked] at here
          rw [own]
          exact ⟨org, (asked_iff id org).mpr asked, recordOf_eq_none.mp here⟩
      | some current =>
          rw [orphanDrift, here] at own
          rw [own] at kind
          cases kind

/-! ### The handler's run -/

theorem keys_setVersion (key : String) (version : Int) (versions : Versions) :
    ∀ k, k ∈ (setVersion key version versions).map Prod.fst ↔ k = key ∨ k ∈ versions.map Prod.fst := by
  induction versions with
  | nil => simp [setVersion]
  | cons entry rest ih =>
      intro k
      rw [setVersion]
      split
      · rename_i same
        simp [same]
      · rw [List.map_cons, List.mem_cons, ih, List.map_cons, List.mem_cons, or_left_comm]

theorem setVersion_nodup (key : String) (version : Int) {versions : Versions}
    (once : (versions.map Prod.fst).Nodup) : ((setVersion key version versions).map Prod.fst).Nodup := by
  induction versions with
  | nil => simp [setVersion]
  | cons entry rest ih =>
      rw [List.map_cons, List.nodup_cons] at once
      rw [setVersion]
      split
      · exact List.nodup_cons.mpr once
      · rename_i other
        refine List.nodup_cons.mpr ⟨fun mem => ?_, ih once.2⟩
        rcases (keys_setVersion key version rest _).mp mem with same | mem
        · exact other same
        · exact once.1 mem

theorem addItems_nodup {items : List Dynamo.Item} {versions versions' : Versions}
    (once : (versions.map Prod.fst).Nodup) (added : addItems versions items = .ok versions') :
    (versions'.map Prod.fst).Nodup := by
  induction items generalizing versions with
  | nil =>
      cases added
      exact once
  | cons item rest ih =>
      unfold addItems at added
      split at added
      · split at added
        · cases added
        · exact ih (setVersion_nodup _ _ once) added
      · cases added

theorem scanPages_exec {fuel : Nat} {start : Option String} {versions versions' : Versions} {w w' : World}
    (once : (versions.map Prod.fst).Nodup)
    (run : Exec S.Answers Elsewhere (scanPages fuel start versions) w (some (.ok versions')) w') :
    (versions'.map Prod.fst).Nodup ∧ ReflTransGen Elsewhere w w' := by
  induction fuel generalizing start versions w with
  | zero =>
      obtain ⟨done, -⟩ := Exec.of_ret run
      cases done
  | succ fuel ih =>
      unfold scanPages at run
      obtain ⟨w₁, reply, w₂, moves, ⟨rfl, -⟩, run⟩ := Exec.of_perform_bind run
      cases reply with
      | error fault =>
          obtain ⟨failed, -⟩ := Exec.of_ret run
          cases failed
      | ok page =>
          dsimp only at run
          split at run
          · obtain ⟨failed, -⟩ := Exec.of_ret run
            cases failed
          · rename_i versions₁ added
            have once₁ := addItems_nodup once added
            split at run
            · obtain ⟨done, rfl⟩ := Exec.of_ret run
              cases done
              exact ⟨once₁, moves⟩
            · obtain ⟨once', more⟩ := ih once₁ run
              exact ⟨once', moves.trans more⟩

/-- A reconciliation that ends in a report, in any environment, part by part. -/
theorem parts_of_reconcile {env : World → World → Prop} {fuel : Nat}
    (run : Exec S.Answers env (reconcile rt fuel now grace) w (some (.ok report)) w') :
    ∃ records w₁ versions w₂ rows, Exec S.Answers env (queryAll .won) w (.ok records) w₁ ∧
      Exec S.Answers env (scanOrderVersions fuel) w₁ (some (.ok versions)) w₂ ∧
      readRows records = .ok rows ∧
      Exec S.Answers env (compare rt rows versions stageLookup now grace) w₂ (.ok report) w' := by
  unfold reconcile at run
  obtain ⟨answer, w₁, won, run⟩ := Exec.of_bind run
  cases answer with
  | error exc =>
      obtain ⟨failed, -⟩ := Exec.of_ret run
      cases failed
  | ok records =>
      obtain ⟨answer, w₂, scanned, run⟩ := Exec.of_bind run
      rcases answer with _ | exc | versions
      · obtain ⟨failed, -⟩ := Exec.of_ret run
        cases failed
      · obtain ⟨failed, -⟩ := Exec.of_ret run
        cases failed
      · cases rows : readRows records with
        | error exc =>
            simp only [rows] at run
            obtain ⟨failed, -⟩ := Exec.of_ret run
            cases failed
        | ok wonDeals =>
            simp only [rows] at run
            obtain ⟨answer, w₃, compared, run⟩ := Exec.of_bind run
            obtain ⟨done, rfl⟩ := Exec.of_ret run
            cases done
            exact ⟨records, w₁, versions, w₂, wonDeals, won, scanned, rows, compared⟩

/-- The reads of the handler are in this order, and a scan gives each id one version. -/
theorem reconciles_of_reconcile {fuel : Nat}
    (run : Exec S.Answers Elsewhere (reconcile rt fuel now grace) w (some (.ok report)) w') :
    ∃ wonDeals orderVersions, (orderVersions.map Prod.fst).Nodup ∧
      Reconciles S rt now grace w wonDeals orderVersions report w' := by
  obtain ⟨records, w₁, versions, w₂, rows, won, scanned, read, compared⟩ := parts_of_reconcile run
  obtain ⟨once, moves⟩ := scanPages_exec (by simp) scanned
  exact ⟨rows, versions, once, .run won read moves compared⟩

end Runs

/-! ### A deal that may be won again -/

def renewal (isWon : Bool) : Deal :=
  ⟨"006A00000000001AAA", some "Renewal", some (if isWon then "Closed Won" else "Negotiation"), isWon,
    none, none, none, none, 0⟩

def renewalWorld (isWon : Bool) (reads : List (Soql × List Deal)) : World :=
  { World.empty with org := [renewal isWon], reads := reads }

/-- The reads of a run in which the deal is not won at first. -/
def renewalReads (isWon : Bool) : List (Soql × List Deal) :=
  [(.won, [renewal false]), (.stages ["006A00000000001AAA"], [renewal isWon])]

/-- A run in which the deal is won again, or not, before it is looked up. -/
theorem reconciles_renewal (isWon : Bool) :
    ∃ report, Reconciles ⟨fun _ => 0⟩ ⟨fun _ => true, 1000⟩ 0 0 (renewalWorld false []) []
        [("006A00000000001AAA", 1)] report (renewalWorld isWon (renewalReads isWon)) ∧
      (⟨.notWon, "006A00000000001AAA", if isWon then "stage is Closed Won" else "stage is Negotiation"⟩ :
        Drift) ∈ report.drift := by
  obtain ⟨report, made⟩ : ∃ report, report = reportOrphans ⟨fun _ => true, 1000⟩
      [("006A00000000001AAA", stageMembers (renewal isWon))] (emptyReport [("006A00000000001AAA", 1)])
      ["006A00000000001AAA"] := ⟨_, rfl⟩
  have answered : Services.Answers ⟨fun _ => 0⟩ (.queryAll .won) (renewalWorld false []) (.ok [])
      (renewalWorld false [(.won, [renewal false])]) := ⟨rfl, rfl⟩
  have won : Exec (Services.Answers ⟨fun _ => 0⟩) Elsewhere (queryAll .won) (renewalWorld false [])
      (.ok []) (renewalWorld false [(.won, [renewal false])]) := .call .refl answered .ret
  have edited : Elsewhere (renewalWorld false [(.won, [renewal false])])
      (renewalWorld isWon [(.won, [renewal false])]) := ⟨rfl, by simp [renewalWorld]⟩
  have looked : Exec (Services.Answers ⟨fun _ => 0⟩) Elsewhere (stageLookup ["006A00000000001AAA"])
      (renewalWorld isWon [(.won, [renewal false])])
      (.ok [("006A00000000001AAA", stageMembers (renewal isWon))])
      (renewalWorld isWon (renewalReads isWon)) := by
    have answered : Services.Answers ⟨fun _ => 0⟩ (.queryAll (.stages ["006A00000000001AAA"]))
        (renewalWorld isWon [(.won, [renewal false])]) (.ok [stageRecord (renewal isWon)])
        (renewalWorld isWon (renewalReads isWon)) := ⟨List.Perm.refl _, rfl⟩
    have loaded : loadAll [stageRecord (renewal isWon)] = .ok [.obj (stageMembers (renewal isWon))] := by
      rw [loadAll, load_stageRecord]
      rfl
    have query : Exec (Services.Answers ⟨fun _ => 0⟩) Elsewhere (queryAll (.stages ["006A00000000001AAA"]))
        (renewalWorld isWon [(.won, [renewal false])]) (.ok [.obj (stageMembers (renewal isWon))])
        (renewalWorld isWon (renewalReads isWon)) := by
      rw [← loaded]
      exact .call .refl answered .ret
    exact query.bind .ret
  have compared : Exec (Services.Answers ⟨fun _ => 0⟩) Elsewhere
      (compare ⟨fun _ => true, 1000⟩ [] [("006A00000000001AAA", 1)] stageLookup 0 0)
      (renewalWorld isWon [(.won, [renewal false])]) (.ok report)
      (renewalWorld isWon (renewalReads isWon)) := by
    rw [made]
    exact looked.bind .ret
  refine ⟨report, .run won rfl (.single edited) compared, ?_⟩
  rw [made]
  cases isWon
  · decide
  · decide

/-- A deal that is not won when it is looked up is reported fairly. -/
theorem fair_renewal :
    ∃ report, Reconciles ⟨fun _ => 0⟩ ⟨fun _ => true, 1000⟩ 0 0 (renewalWorld false []) []
        [("006A00000000001AAA", 1)] report (renewalWorld false (renewalReads false)) ∧
      Fair report (readsSince (renewalWorld false []) (renewalWorld false (renewalReads false))) := by
  obtain ⟨report, run, -⟩ := reconciles_renewal false
  refine ⟨report, run, (fair_iff (by simp) (by simp [renewalWorld]) run).mpr ?_⟩
  intro id stored _ _
  obtain rfl : id = "006A00000000001AAA" := by simpa using stored
  refine ⟨by decide, ?_⟩
  rintro org ⟨ids, mem, -⟩ d here -
  have read : (Soql.stages ids, org) ∈ renewalReads false := mem
  simp only [renewalReads, List.mem_cons, Prod.mk.injEq, reduceCtorEq, false_and, false_or,
    List.not_mem_nil, or_false] at read
  rw [read.2] at here
  rw [List.mem_singleton.mp here]
  rfl

/-- A deal that was won again before it is looked up is reported as not won. -/
theorem not_fair_wonAgain :
    ∃ report, Reconciles ⟨fun _ => 0⟩ ⟨fun _ => true, 1000⟩ 0 0 (renewalWorld false []) []
        [("006A00000000001AAA", 1)] report (renewalWorld true (renewalReads true)) ∧
      ¬ Fair report (readsSince (renewalWorld false []) (renewalWorld true (renewalReads true))) := by
  obtain ⟨report, run, reported⟩ := reconciles_renewal true
  refine ⟨report, run, fun fair => ?_⟩
  obtain ⟨org, ⟨ids, mem, -⟩, d, here, -, lost⟩ := fair.notWon _ reported rfl
  have read : (Soql.stages ids, org) ∈ renewalReads true := mem
  simp only [renewalReads, List.mem_cons, Prod.mk.injEq, reduceCtorEq, false_and, false_or,
    List.not_mem_nil, or_false] at read
  rw [read.2] at here
  rw [List.mem_singleton.mp here] at lost
  cases lost

end Relay.Reconciler
