import Relay.Data.Batches
import Relay.Effect.Trace
import Relay.FakeSalesforce.Queries
import Relay.Reconciler.Reconcile

/-!
The queries that `stage_lookup` sends.

Only well-formed ids go into a query's text. They have no quote and no backslash,
so the text is read as the query for these ids and as nothing else, whatever the
orders table holds.
-/

namespace Relay.Reconciler

open Relay.Python Relay.Platform Relay.Effect Relay.Data Relay.Salesforce Relay.FakeSalesforce

section Runs

variable {World : Type} {answers : (request : Request) → World → request.Answer → World → Prop}
  {env : World → World → Prop}

/-- The requests that look up some batches. -/
def lookups (sent : List (List String)) : List Request := sent.map fun ids => .queryAll (.stages ids)

/-- A record that `json.loads` decodes to a dictionary with an id. -/
def Named (record : Json.Value Json.Token) : Prop :=
  ∃ members id, load record = .ok (.obj members) ∧ dictGet "Id" members = .str id

/-- A query that failed or returned a record without an id. -/
def Spoils : Exchange Request.Answer → Prop
  | ⟨.queryAll _, reply⟩ => ∀ records, reply = .ok records → ∃ record ∈ records, ¬ Named record
  | _ => False

/-- A query is one request. -/
theorem calls_of_queryAll {soql : Soql} {w w' : World} {calls : List (Exchange Request.Answer)}
    {result : Except Exn (List Obj)} (run : Traced answers env (queryAll soql) w calls result w') :
    ∃ reply, calls = [⟨.queryAll soql, reply⟩] ∧ ∀ records, reply = .ok records → result = loadAll records := by
  obtain ⟨w₁, reply, w₂, later, rfl, -, -, done⟩ := Traced.of_perform_bind run
  cases reply with
  | error err =>
      obtain ⟨rfl, -, -⟩ := Traced.of_ret done
      exact ⟨_, rfl, fun _ failed => nomatch failed⟩
  | ok records =>
      obtain ⟨rfl, rfl, -⟩ := Traced.of_ret done
      refine ⟨_, rfl, ?_⟩
      rintro _ ⟨⟩
      rfl

/-- Records with ids are all kept. -/
theorem keyed_named {records : List (Json.Value Json.Token)} (named : ∀ record ∈ records, Named record) :
    ∃ rows, loadAll records = .ok rows ∧ ∀ found, ∃ found', keyed found rows = .ok found' := by
  induction records with
  | nil => exact ⟨[], rfl, fun found => ⟨found, rfl⟩⟩
  | cons record rest ih =>
      rw [List.forall_mem_cons] at named
      obtain ⟨⟨members, id, loaded, key⟩, others⟩ := named
      obtain ⟨rows, decoded, kept⟩ := ih others
      refine ⟨.obj members :: rows, by rw [loadAll, loaded, decoded]; rfl, fun found => ?_⟩
      obtain ⟨found', whole⟩ := kept ((id, members) :: found)
      exact ⟨found', by rw [keyed, key]; exact whole⟩

/-- The batches are asked for in order, all of them unless the last query spoils the lookup. -/
theorem calls_of_lookupBatches {batches : List (List String)} {found : Found} {w w' : World}
    {calls : List (Exchange Request.Answer)} {result : Except Exn Found}
    (run : Traced answers env (lookupBatches found batches) w calls result w') :
    ∃ sent, calls.map Sigma.fst = lookups sent ∧ sent <+: batches ∧
      (∀ found', result = .ok found' → sent = batches) ∧
      ∀ exc, result = .error exc → ∃ last ∈ calls.getLast?, Spoils last := by
  induction batches generalizing found w calls with
  | nil =>
      obtain ⟨rfl, rfl, -⟩ := Traced.of_ret run
      exact ⟨[], rfl, List.nil_prefix, fun _ _ => rfl, fun _ failed => nomatch failed⟩
  | cons ids rest ih =>
      unfold lookupBatches at run
      obtain ⟨answer, w₁, before, after, rfl, query, later⟩ := Traced.of_bind run
      obtain ⟨reply, rfl, answered⟩ := calls_of_queryAll query
      let call : Exchange Request.Answer := ⟨.queryAll (.stages ids), reply⟩
      -- a failure here: this batch was the last
      have failed : ∀ {exc : Exn}, Traced answers env (pure (.error exc)) w₁ after result w' →
          Spoils call → ∃ sent, (call :: after).map Sigma.fst = lookups sent ∧ sent <+: ids :: rest ∧
            (∀ found', result = .ok found' → sent = ids :: rest) ∧
            ∀ exc, result = .error exc → ∃ last ∈ (call :: after).getLast?, Spoils last := by
        intro exc stopped spoils
        obtain ⟨rfl, rfl, -⟩ := Traced.of_ret stopped
        refine ⟨[ids], rfl, ⟨rest, rfl⟩, ?_, fun _ _ => ⟨call, rfl, spoils⟩⟩
        rintro found' ⟨⟩
      cases answer with
      | error exc =>
          refine failed later fun records ok => ?_
          by_contra all
          push Not at all
          obtain ⟨rows, decoded, -⟩ := keyed_named all
          cases (answered records ok).trans decoded
      | ok rows =>
          simp only at later
          split at later
          · rename_i exc unkeyed
            refine failed later fun records ok => ?_
            by_contra all
            push Not at all
            obtain ⟨rows', decoded, kept⟩ := keyed_named all
            obtain rfl := Except.ok.inj ((answered records ok).trans decoded)
            obtain ⟨found', whole⟩ := kept found
            cases unkeyed.symm.trans whole
          · obtain ⟨sent, asked, front, whole, spoiled⟩ := ih later
            refine ⟨ids :: sent, ?_, List.cons_prefix_cons.mpr ⟨rfl, front⟩, ?_, ?_⟩
            · rw [List.map_append, asked]
              rfl
            · intro found' returned
              rw [whole found' returned]
            · intro exc stopped
              obtain ⟨last, mem, spoils⟩ := spoiled exc stopped
              refine ⟨last, ?_, spoils⟩
              rw [List.getLast?_append, Option.mem_def.mp mem]
              rfl

end Runs

/-! ### Their texts -/

theorem isSfId_plain {id : String} (formed : isSfId id = true) : ∀ c ∈ id.toList, c ≠ '\\' ∧ c ≠ '\'' := by
  intro c mem
  rw [isSfId, Bool.and_eq_true] at formed
  have letter := List.all_eq_true.mp formed.1 c mem
  constructor
  · rintro rfl
    cases letter
  · rintro rfl
    cases letter

/-- A batch of well-formed ids is read as the query for it. -/
theorem parse_stages (printable : Char → Bool) {ids : List String} (ne : ids ≠ [])
    (formed : ∀ id ∈ ids, isSfId id = true) :
    parse printable (Soql.stages ids).text = .ok (stagesQuery ids) := by
  have plain : ∀ id ∈ ids, ∀ c ∈ id.toList, c ≠ '\\' ∧ c ≠ '\'' := fun id mem => isSfId_plain (formed id mem)
  rw [← print_stagesQuery ne plain]
  refine parse_print_plain printable (stagesQuery_hasText ne) (fun text mem => ?_) rfl
  have among : text ∈ ids := by simpa [Query.texts, stagesQuery, Test.texts] using mem
  exact fun backslash => (plain text among _ backslash).1 rfl

/-- **What `stage_lookup` sends**: lookups of one to a hundred ids each, whose texts are read as such,
together the well-formed ids in order, up to the first query that fails or spoils the lookup. -/
theorem stageLookup_sends (printable : Char → Bool) {World : Type}
    {answers : (request : Request) → World → request.Answer → World → Prop} {env : World → World → Prop}
    {ids : List String} {w w' : World} {calls : List (Exchange Request.Answer)} {result : Except Exn Found}
    (run : Traced answers env (stageLookup ids) w calls result w') :
    ∃ sent : List (List String), calls.map Sigma.fst = lookups sent ∧
      (∀ batch ∈ sent, 1 ≤ batch.length ∧ batch.length ≤ 100 ∧
        parse printable (Soql.stages batch).text = .ok (stagesQuery batch)) ∧
      sent.flatten <+: ids.filter isSfId ∧
      (∀ found, result = .ok found → sent.flatten = ids.filter isSfId) ∧
      (∀ exc, result = .error exc → ∃ last ∈ calls.getLast?, Spoils last) ∧
      (ids.filter isSfId = [] → calls = []) := by
  have all : (batches 100 (ids.filter isSfId)).flatten = ids.filter isSfId := flatten_batches (by omega) _
  obtain ⟨sent, asked, front, whole, spoiled⟩ := calls_of_lookupBatches run
  refine ⟨sent, asked, ?_, ?_, ?_, spoiled, ?_⟩
  · intro batch mem
    have among := front.subset mem
    obtain ⟨some, most⟩ := length_of_mem_batches (by omega) among
    have formed : ∀ id ∈ batch, isSfId id = true := fun id inside =>
      (List.mem_filter.mp ((mem_batches (by omega)).mp ⟨batch, among, inside⟩)).2
    exact ⟨some, most, parse_stages printable (List.ne_nil_of_length_pos some) formed⟩
  · rw [← all]
    exact front.flatten
  · intro found returned
    rw [whole found returned, all]
  · intro none
    rw [none] at front
    have nothing : sent = [] := List.prefix_nil.mp front
    rw [nothing] at asked
    exact List.map_eq_nil_iff.mp asked

/-- One of two ids is well-formed; the other would end the string. -/
theorem stageLookup_sends_one :
    ∃ (calls : List (Exchange Request.Answer)) (sent : List (List String)),
      Traced (fun _ _ _ _ => True) (fun _ _ : Unit => False) (stageLookup ["' OR Name != '", "006A00000000001AAA"]) ()
        calls (.ok []) () ∧ calls.map Sigma.fst = lookups sent ∧ sent.flatten = ["006A00000000001AAA"] := by
  have formed : ["' OR Name != '", "006A00000000001AAA"].filter isSfId = ["006A00000000001AAA"] := by
    with_unfolding_all rfl
  have run : Traced (fun _ _ _ _ => True) (fun _ _ : Unit => False)
      (stageLookup ["' OR Name != '", "006A00000000001AAA"]) ()
      [⟨.queryAll (.stages ["006A00000000001AAA"]), .ok []⟩] (.ok []) () := by
    rw [stageLookup, formed]
    exact .call .refl trivial .ret
  obtain ⟨sent, asked, -, -, whole, -, -⟩ := stageLookup_sends (fun _ => true) run
  exact ⟨_, sent, run, asked, (whole _ rfl).trans formed⟩

end Relay.Reconciler
