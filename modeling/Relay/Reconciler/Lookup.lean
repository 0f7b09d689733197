import Relay.Effect.Pool
import Relay.Platform.World
import Relay.Reconciler.Reconcile

/-!
What `stage_lookup` finds.

Salesforce may change between two queries. `Asked` names the state of the org that
a query for an id was answered from, and `Looked` says that what was found for the
id is its record in that state.
-/

namespace Relay.Reconciler

open Relay.Json Relay.Python Relay.Platform Relay.Effect Relay.Salesforce Relay.Events Relay.Data Relation

/-- An id was asked for, and this org answered. -/
def Asked (reads : List (Soql × List Deal)) (id : String) (org : List Deal) : Prop :=
  ∃ ids, (Soql.stages ids, org) ∈ reads ∧ id ∈ ids

/-- The members of a record of the lookup. -/
def stageMembers (d : Deal) : List (String × Obj) :=
  [("Id", .str d.id), ("StageName", jsonText d.stageName), ("IsWon", .bool d.isWon)]

theorem fields_of_stageMembers {d d' : Deal} (same : stageMembers d = stageMembers d') :
    d.id = d'.id ∧ d.isWon = d'.isWon := by
  simp only [stageMembers, List.cons.injEq, Prod.mk.injEq, Value.str.injEq, Value.bool.injEq] at same
  exact ⟨same.1.2, same.2.2.1.2⟩

theorem load_stageRecord (d : Deal) : load (stageRecord d) = .ok (.obj (stageMembers d)) := by
  simp only [load, Value.decoded, stageRecord, Value.decode, decodeMembers, decode_jsonText]
  simp only [Except.map]
  rw [dictOf_of_nodup (by simp)]
  rfl

/-- The record of an id in a state of the org. -/
def recordOf (org : List Deal) (id : String) : Option (List (String × Obj)) :=
  (org.find? fun d => d.id = id).map stageMembers

theorem recordOf_mem {org : List Deal} (distinct : (org.map Deal.id).Nodup) {d : Deal} (mem : d ∈ org) :
    recordOf org d.id = some (stageMembers d) := by
  have found : org.find? (fun d' => d'.id = d.id) = some d := by
    cases found : org.find? (fun d' => d'.id = d.id) with
    | none =>
        have := List.find?_eq_none.mp found d mem
        simp at this
    | some d' =>
        have same : d'.id = d.id := by simpa using List.find?_some found
        rw [List.inj_on_of_nodup_map distinct (List.mem_of_find?_eq_some found) mem same]
  rw [recordOf, found, Option.map_some]

theorem recordOf_eq_some {org : List Deal} {id : String} {row : List (String × Obj)}
    (found : recordOf org id = some row) : ∃ d ∈ org, d.id = id ∧ row = stageMembers d := by
  obtain ⟨d, here, rfl⟩ := Option.map_eq_some_iff.mp found
  exact ⟨d, List.mem_of_find?_eq_some here, by simpa using List.find?_some here, rfl⟩

theorem recordOf_eq_none {org : List Deal} {id : String} :
    recordOf org id = none ↔ ∀ d ∈ org, d.id ≠ id := by
  rw [recordOf, Option.map_eq_none_iff, List.find?_eq_none]
  simp

/-! ### One query -/

theorem mem_loadAll {records : List (Json.Value Token)} {rows : List Obj} (loaded : loadAll records = .ok rows)
    (row : Obj) : row ∈ rows ↔ ∃ record ∈ records, load record = .ok row := by
  induction records generalizing rows with
  | nil =>
      cases loaded
      simp
  | cons record rest ih =>
      unfold loadAll at loaded
      split at loaded
      · cases loaded
      · rename_i row₀ first
        cases others : loadAll rest with
        | error exc =>
            rw [others] at loaded
            cases loaded
        | ok rows' =>
            rw [others] at loaded
            cases loaded
            rw [List.mem_cons, ih others]
            simp [first, eq_comm]

/-- The rows of the deals that a query asked for. -/
theorem mem_stages {records : List (Json.Value Token)} {rows : List Obj} {ids : List String} {org : List Deal}
    (selects : (Soql.stages ids).Selects org records) (loaded : loadAll records = .ok rows) (row : Obj) :
    row ∈ rows ↔ ∃ d ∈ org, d.id ∈ ids ∧ row = .obj (stageMembers d) := by
  rw [mem_loadAll loaded]
  have records_ : ∀ record, record ∈ records ↔ ∃ d ∈ org, d.id ∈ ids ∧ record = stageRecord d := by
    intro record
    rw [List.Perm.mem_iff selects, List.mem_map]
    simp [eq_comm, and_assoc]
  constructor
  · rintro ⟨record, mem, load_⟩
    obtain ⟨d, here, asked, rfl⟩ := (records_ record).mp mem
    rw [load_stageRecord] at load_
    exact ⟨d, here, asked, (Except.ok.inj load_).symm⟩
  · rintro ⟨d, here, asked, rfl⟩
    exact ⟨stageRecord d, (records_ _).mpr ⟨d, here, asked, rfl⟩, load_stageRecord d⟩

theorem keyed_cons {found found' : Found} {members : List (String × Obj)} {rest : List Obj} {id : String}
    (key : dictGet "Id" members = .str id)
    (done : keyed found (.obj members :: rest) = .ok found') : keyed ((id, members) :: found) rest = .ok found' := by
  rw [keyed, key] at done
  exact done

/-- The rows of one answer, over those found before. -/
theorem lookup_keyed {org : List Deal} (distinct : (org.map Deal.id).Nodup) {rows : List Obj}
    (shown : ∀ row ∈ rows, ∃ d ∈ org, row = .obj (stageMembers d)) {found found' : Found}
    (done : keyed found rows = .ok found') (id : String) :
    ((∃ d ∈ org, d.id = id ∧ .obj (stageMembers d) ∈ rows) ∧ found'.lookup id = recordOf org id) ∨
      ((∀ d ∈ org, d.id = id → .obj (stageMembers d) ∉ rows) ∧ found'.lookup id = found.lookup id) := by
  induction rows generalizing found with
  | nil =>
      cases done
      exact .inr ⟨by simp, rfl⟩
  | cons row rest ih =>
      obtain ⟨d, mem, rfl⟩ := shown row List.mem_cons_self
      rcases ih (fun row mem => shown row (List.mem_cons_of_mem _ mem)) (keyed_cons rfl done) with
        ⟨⟨d', mem', own, later⟩, there⟩ | ⟨never, there⟩
      · exact .inl ⟨⟨d', mem', own, List.mem_cons_of_mem _ later⟩, there⟩
      · by_cases own : d.id = id
        · subst own
          refine .inl ⟨⟨d, mem, rfl, List.mem_cons_self⟩, ?_⟩
          rw [there, recordOf_mem distinct mem, List.lookup_cons_self]
        · refine .inr ⟨fun d' mem' own' later => ?_, ?_⟩
          · rcases List.mem_cons.mp later with same | later
            · exact own ((fields_of_stageMembers (Value.obj.inj same)).1.symm.trans own')
            · exact never d' mem' own' later
          · have other : (id == d.id) = false := by simpa using fun same : id = d.id => own same.symm
            rw [there, List.lookup_cons, other]

/-! ### The batches -/

/-- Everything but the queries may change; ids stay unique. -/
def Elsewhere (w w' : World) : Prop := w'.reads = w.reads ∧ (w'.org.map Deal.id).Nodup

theorem elsewhere_moves {w w' : World} (distinct : (w.org.map Deal.id).Nodup)
    (moves : ReflTransGen Elsewhere w w') : w'.reads = w.reads ∧ (w'.org.map Deal.id).Nodup := by
  induction moves with
  | refl => exact ⟨rfl, distinct⟩
  | tail _ move ih => exact ⟨move.1.trans ih.1, move.2⟩

/-- What was found after the reads, from what was found before. -/
structure Looked (ids : List String) (found found' : Found) (reads : List (Soql × List Deal)) : Prop where
  asked : ∀ id, (∃ org, Asked reads id org) ↔ id ∈ ids
  shown : ∀ id org, Asked reads id org → found'.lookup id = recordOf org id
  distinct : ∀ id org, Asked reads id org → (org.map Deal.id).Nodup
  kept : ∀ id ∉ ids, found'.lookup id = found.lookup id

section Runs

variable {S : Services}

/-- A query that succeeds is answered from one state of the org. -/
theorem queried {soql : Soql} {rows : List Obj} {w w' : World} (distinct : (w.org.map Deal.id).Nodup)
    (run : Exec S.Answers Elsewhere (queryAll soql) w (.ok rows) w') :
    ∃ records, soql.Selects w'.org records ∧ loadAll records = .ok rows ∧
      w'.reads = w.reads ++ [(soql, w'.org)] ∧ (w'.org.map Deal.id).Nodup := by
  obtain ⟨w₁, reply, w₂, moves, answered, done⟩ := Exec.of_perform_bind run
  obtain ⟨same, distinct⟩ := elsewhere_moves distinct moves
  cases reply with
  | error err =>
      obtain ⟨failed, -⟩ := Exec.of_ret done
      cases failed
  | ok records =>
      obtain ⟨loaded, rfl⟩ := Exec.of_ret done
      obtain ⟨selects, rfl⟩ := answered
      refine ⟨records, selects, loaded.symm, ?_, distinct⟩
      rw [← same]

theorem looked_nil (found : Found) : Looked [] found found [] where
  asked := fun id => by simp [Asked]
  shown := by
    rintro id org ⟨ids, mem, -⟩
    cases mem
  distinct := by
    rintro id org ⟨ids, mem, -⟩
    cases mem
  kept := fun _ _ => rfl

theorem Looked.cons {ids rest : List String} {found found₁ found' : Found} {org : List Deal}
    {reads : List (Soql × List Deal)} (distinct : (org.map Deal.id).Nodup)
    (apart : ∀ id ∈ ids, id ∉ rest)
    (first : ∀ id, found₁.lookup id = if id ∈ ids then recordOf org id else found.lookup id)
    (later : Looked rest found₁ found' reads) :
    Looked (ids ++ rest) found found' ((.stages ids, org) :: reads) := by
  have askedCons : ∀ id org', Asked ((.stages ids, org) :: reads) id org' ↔
      (id ∈ ids ∧ org' = org) ∨ Asked reads id org' := by
    intro id org'
    simp only [Asked, List.mem_cons, Prod.mk.injEq, Soql.stages.injEq]
    constructor
    · rintro ⟨ids', ⟨rfl, rfl⟩ | mem, own⟩
      · exact .inl ⟨own, rfl⟩
      · exact .inr ⟨ids', mem, own⟩
    · rintro (⟨own, rfl⟩ | ⟨ids', mem, own⟩)
      · exact ⟨ids, .inl ⟨rfl, rfl⟩, own⟩
      · exact ⟨ids', .inr mem, own⟩
  refine ⟨fun id => ?_, fun id org' asked => ?_, fun id org' asked => ?_, fun id absent => ?_⟩
  · rw [List.mem_append, ← later.asked id]
    constructor
    · rintro ⟨org', asked⟩
      rcases (askedCons id org').mp asked with ⟨own, -⟩ | asked
      · exact .inl own
      · exact .inr ⟨org', asked⟩
    · rintro (own | ⟨org', asked⟩)
      · exact ⟨org, (askedCons id org).mpr (.inl ⟨own, rfl⟩)⟩
      · exact ⟨org', (askedCons id org').mpr (.inr asked)⟩
  · rcases (askedCons id org').mp asked with ⟨own, rfl⟩ | asked
    · rw [later.kept id (apart id own), first id, if_pos own]
    · exact later.shown id org' asked
  · rcases (askedCons id org').mp asked with ⟨-, rfl⟩ | asked
    · exact distinct
    · exact later.distinct id org' asked
  · rw [List.mem_append, not_or] at absent
    rw [later.kept id absent.2, first id, if_neg absent.1]

/-- The batches of distinct ids that were not found before. -/
theorem looked_lookupBatches {batches : List (List String)} (once : batches.flatten.Nodup)
    {found found' : Found} (fresh : ∀ id ∈ batches.flatten, found.lookup id = none) {w w' : World}
    (distinct : (w.org.map Deal.id).Nodup)
    (run : Exec S.Answers Elsewhere (lookupBatches found batches) w (.ok found') w') :
    ∃ reads, w'.reads = w.reads ++ reads ∧ Looked batches.flatten found found' reads := by
  induction batches generalizing found w with
  | nil =>
      obtain ⟨done, rfl⟩ := Exec.of_ret run
      cases done
      exact ⟨[], (List.append_nil _).symm, looked_nil _⟩
  | cons ids rest ih =>
      unfold lookupBatches at run
      obtain ⟨answer, w₁, query, run⟩ := Exec.of_bind run
      cases answer with
      | error exc =>
          obtain ⟨failed, -⟩ := Exec.of_ret run
          cases failed
      | ok rows =>
          obtain ⟨records, selects, loaded, read, distinct₁⟩ := queried distinct query
          cases keyed_ : keyed found rows with
          | error exc =>
              simp only [keyed_] at run
              obtain ⟨failed, -⟩ := Exec.of_ret run
              cases failed
          | ok found₁ =>
              simp only [keyed_] at run
              rw [List.flatten_cons, List.nodup_append'] at once
              obtain ⟨-, onceRest, apart⟩ := once
              have first : ∀ id, found₁.lookup id =
                  if id ∈ ids then recordOf w₁.org id else found.lookup id := by
                intro id
                have rows_ := mem_stages selects loaded
                rcases lookup_keyed distinct₁ (fun row mem => by
                    obtain ⟨d, here, -, same⟩ := (rows_ row).mp mem
                    exact ⟨d, here, same⟩) keyed_ id with ⟨⟨d, -, rfl, shown⟩, there⟩ | ⟨never, there⟩
                · obtain ⟨d', -, asked, same⟩ := (rows_ _).mp shown
                  rw [← (fields_of_stageMembers (Value.obj.inj same)).1] at asked
                  rw [there, if_pos asked]
                · by_cases asked : id ∈ ids
                  · have gone : recordOf w₁.org id = none := by
                      refine recordOf_eq_none.mpr fun d here own => never d here own ?_
                      exact (rows_ _).mpr ⟨d, here, own ▸ asked, rfl⟩
                    have before := fresh id (List.mem_append_left _ asked)
                    rw [there, if_pos asked, gone, before]
                  · rw [there, if_neg asked]
              have freshRest : ∀ id ∈ rest.flatten, found₁.lookup id = none := by
                intro id later
                rw [first id, if_neg fun own => apart own later]
                exact fresh id (List.mem_append_right _ later)
              obtain ⟨reads, more, looked⟩ := ih onceRest freshRest distinct₁ run
              refine ⟨(.stages ids, w₁.org) :: reads, ?_,
                looked.cons distinct₁ (fun id own => apart own) first⟩
              rw [more, read, List.append_assoc]
              rfl

/-- `stage_lookup` asks for the well-formed ids. -/
theorem looked_stageLookup {ids : List String} (once : ids.Nodup) {found : Found} {w w' : World}
    (distinct : (w.org.map Deal.id).Nodup)
    (run : Exec S.Answers Elsewhere (stageLookup ids) w (.ok found) w') :
    ∃ reads, w'.reads = w.reads ++ reads ∧ Looked (ids.filter isSfId) [] found reads := by
  have batches_ : (batches 100 (ids.filter isSfId)).flatten = ids.filter isSfId :=
    flatten_batches (by decide) _
  have once : (batches 100 (ids.filter isSfId)).flatten.Nodup := by
    rw [batches_]
    exact once.filter _
  obtain ⟨reads, more, looked⟩ := looked_lookupBatches once (fun _ _ => rfl) distinct run
  rw [batches_] at looked
  exact ⟨reads, more, looked⟩

end Runs

end Relay.Reconciler
