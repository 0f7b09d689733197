import Relay.FakeSalesforce.Edits

/-!
What the fake Salesforce answers to Relay's queries.

The text of each is read as its query, and a query's rows are those of the deals
that it selects (`answer_selects`). Together with the pages of one moment
(`queryAll_snapshot`), a query of either client over the network is one that reads
all of its records at once (`queryAll_atomic`).
-/

namespace Relay.FakeSalesforce

open Relay.Json Relay.Python Relay.Calendar Relay.Salesforce Relay.Reconciler Relay.Ingest Relay.Rest Relay.Effect
  Relation

/-! ### The queries -/

/-- Every won deal. -/
def wonQuery : Query where
  fields := (windowQuery 0 0).fields
  sobject := "Opportunity"
  conditions := [⟨.isWon, .compare .eq (some true)⟩]
  orderBy := [⟨.systemModstamp, false⟩, ⟨.id, false⟩]
  limit := none

theorem wonQuery_hasText : wonQuery.HasText where
  fields := List.cons_ne_nil _ _
  sobject := rfl
  conditions := by
    intro c mem
    rw [List.mem_singleton.mp mem]
    exact fun _ _ => trivial

set_option maxRecDepth 4000 in
theorem print_wonQuery : print wonQuery = Soql.won.text := by with_unfolding_all rfl

/-- The instant's year has a literal that Python reads. -/
def Dated (t : Int) : Prop := 1 ≤ yearOf (t / nanosPerSecond) ∧ yearOf (t / nanosPerSecond) ≤ 9999

/-- A query that is read, and as what. -/
inductive Readable : Soql → Query → Prop where
  | won : Readable .won wonQuery
  | wonBetween {from_ upper : Int} : Dated from_ → Dated upper →
      Readable (query from_ upper) (windowQuery (floorSecond from_) (floorSecond upper))
  | stages {ids : List String} : ids ≠ [] → (∀ id ∈ ids, isSfId id = true) → Readable (.stages ids) (stagesQuery ids)

theorem Readable.parse {soql : Soql} {q : Query} (readable : Readable soql q) (printable : Char → Bool) :
    parse printable soql.text = .ok q := by
  cases readable with
  | won =>
      rw [← print_wonQuery]
      exact parse_print_plain printable wonQuery_hasText (fun text mem => by cases mem) rfl
  | wonBetween from_ upper =>
      have text := print_windowQuery from_.1 from_.2 upper.1 upper.2
      have has := windowQuery_hasText (floorSecond_hasLiteral from_.1 from_.2) (floorSecond_hasLiteral upper.1 upper.2)
      exact text ▸ parse_print_plain printable has (fun text mem => by cases mem) rfl
  | stages ne formed => exact parse_stages printable ne formed

/-! ### The deals of a query -/

namespace Store

variable {store : Store}

theorem Tidy.records (tidy : store.Tidy) {opp : OpportunityRecord} (mem : opp ∈ store.records) :
    ∃ oppId, (oppId, opp) ∈ store.opportunities ∧ opp.Tidy oppId := by
  obtain ⟨⟨oppId, _⟩, here, rfl⟩ := List.mem_map.mp mem
  exact ⟨oppId, here, tidy.opportunities _ _ here⟩

/-- The deals are those of different Ids. -/
theorem Tidy.deals_nodup (tidy : store.Tidy) : (store.deals.map Deal.id).Nodup := by
  have ids : store.deals.map Deal.id = store.opportunities.map Prod.fst := by
    rw [deals, Store.records, List.map_map, List.map_map]
    refine List.map_congr_left fun entry mem => ?_
    have named := (tidy.opportunities entry.1 entry.2 mem).named
    simp [dealOf, named]
  rw [ids]
  exact store.opportunities_nodup

/-- The order of a WON query is that of the deals. -/
theorem Shown.before (shown : store.Shown) {a b : OpportunityRecord} (memA : a ∈ store.records) (memB : b ∈ store.records)
    (ordered : store.Ordered wonQuery.orderBy a b) : Deal.Before (store.dealOf a) (store.dealOf b) := by
  obtain ⟨i, -, tidyA⟩ := shown.tidy.records memA
  obtain ⟨j, -, tidyB⟩ := shown.tidy.records memB
  obtain ⟨s, stampA, -, -⟩ := tidyA.stamped
  obtain ⟨s', stampB, -, -⟩ := tidyB.stamped
  have wholeA := shown.whole a memA s stampA
  have wholeB := shown.whole b memB s' stampB
  have valueA : store.orderValue ⟨.systemModstamp, false⟩ a = some s := by
    rw [orderValue, compared, fieldValue, stampA]
    rfl
  have valueB : store.orderValue ⟨.systemModstamp, false⟩ b = some s' := by
    rw [orderValue, compared, fieldValue, stampB]
    rfl
  have idA : store.orderValue ⟨.id, false⟩ a = some i := by
    rw [orderValue, compared, fieldValue, tidyA.named]
    rfl
  have idB : store.orderValue ⟨.id, false⟩ b = some j := by
    rw [orderValue, compared, fieldValue, tidyB.named]
    rfl
  simp only [wonQuery, Ordered, valueA, valueB, idA, idB] at ordered
  simp only [Deal.Before, dealOf, stampA, stampB, tidyA.named, tidyB.named, Option.getD_some]
  rcases ordered with before | ⟨tied, before | ⟨same, -⟩⟩
  · have lt : s < s' := before
    omega
  · have lt : i < j := before
    rw [Option.some.inj tied]
    exact .inr ⟨rfl, lt.le⟩
  · rw [Option.some.inj tied, Option.some.inj same]
    exact .inr ⟨rfl, le_refl j⟩

/-- The records that a query finds are those of the deals that it selects. -/
theorem perm_chosen_deals {q : Query} {condition : Deal → Bool}
    (same : ∀ opp ∈ store.records, store.Satisfies q.conditions opp ↔ condition (store.dealOf opp) = true) :
    ((store.chosen q).map store.dealOf).Perm (store.deals.filter condition) := by
  have filtered : store.deals.filter condition =
      (store.records.filter (store.Satisfies q.conditions)).map store.dealOf := by
    rw [deals, List.filter_map]
    refine congrArg _ (List.filter_congr fun opp mem => ?_)
    rw [Bool.eq_iff_iff, decide_eq_true_eq]
    exact (same opp mem).symm
  rw [filtered]
  exact (store.perm_chosen q).map _

/-- A WON query's records come in the order of its deals. -/
theorem Shown.chosen_deals (shown : store.Shown) {q : Query} {condition : Deal → Bool}
    (orderBy : q.orderBy = wonQuery.orderBy)
    (same : ∀ opp ∈ store.records, store.Satisfies q.conditions opp ↔ condition (store.dealOf opp) = true) :
    (store.chosen q).map store.dealOf = Salesforce.selected condition store.deals := by
  have perm := perm_chosen_deals same
  have all : ∀ opp ∈ store.chosen q, opp ∈ store.records := fun opp mem =>
    (List.mem_filter.mp ((store.perm_chosen q).subset mem)).1
  have sorted : ((store.chosen q).map store.dealOf).Pairwise Deal.Before := by
    refine List.pairwise_map.mpr ((store.pairwise_chosen q).imp_of_mem fun memA memB ordered => ?_)
    rw [orderBy] at ordered
    exact shown.before (all _ memA) (all _ memB) ordered
  refine List.Perm.eq_of_pairwise ?_ sorted (selected_sorted _ _)
    (perm.trans (List.perm_insertionSort _ _).symm)
  intro d d' mem mem' before after
  have ids : d.id = d'.id := by
    rcases before with lt | ⟨same, le⟩
    · rcases after with lt' | ⟨same', -⟩
      · omega
      · omega
    · rcases after with lt' | ⟨-, le'⟩
      · omega
      · exact le_antisymm le le'
  refine List.inj_on_of_nodup_map shown.tidy.deals_nodup ?_ (mem_selected.mp mem').1 ids
  exact (List.mem_filter.mp (perm.subset mem)).1

end Store

/-! ### Conditions -/

section Conditions

variable {store : Store} {opp : OpportunityRecord}

theorem satisfies_wonQuery : store.Satisfies wonQuery.conditions opp ↔ (store.dealOf opp).isWon = true := by
  simp only [Store.Satisfies, wonQuery, List.forall_mem_cons, List.not_mem_nil, false_imp_iff, implies_true, and_true]
  exact Option.some_inj.trans decide_eq_true_iff |>.trans decide_eq_true_iff.symm

theorem satisfies_stagesQuery (tidy : store.Tidy) (mem : opp ∈ store.records) (ids : List String) :
    store.Satisfies (stagesQuery ids).conditions opp ↔ decide ((store.dealOf opp).id ∈ ids) = true := by
  obtain ⟨oppId, -, kept⟩ := tidy.records mem
  simp only [Store.Satisfies, stagesQuery, List.forall_mem_cons, List.not_mem_nil, false_imp_iff, implies_true, and_true,
    Test.Holds, Store.fieldValue, asText, kept.named, Store.dealOf, Option.getD_some, decide_eq_true_eq]
  constructor
  · rintro ⟨text, among, same⟩
    rwa [Option.some.inj same]
  · exact fun among => ⟨oppId, among, rfl⟩

/-- A window of instants holds the stamps from its first second up to its last. -/
theorem insideWindow_iff (shown : store.Shown) (mem : opp ∈ store.records) (from_ upper : Int) :
    InsideWindow (floorSecond from_) (floorSecond upper) opp ↔
      inWindow (truncateSecond from_) (truncateSecond upper) (store.dealOf opp) = true := by
  obtain ⟨oppId, -, tidy⟩ := shown.tidy.records mem
  obtain ⟨us, stamped, -, -⟩ := tidy.stamped
  have whole := shown.whole opp mem us stamped
  have low : floorSecond from_ ≤ us ↔ truncateSecond from_ ≤ 1000000 * (us / 1000) := by
    rw [floorSecond, truncateSecond, nanosPerSecond]
    omega
  have high : us < floorSecond upper ↔ 1000000 * (us / 1000) < truncateSecond upper := by
    rw [floorSecond, truncateSecond, nanosPerSecond]
    omega
  simp only [InsideWindow, inWindow, stamped, Option.any_some, Store.dealOf, Deal.stamp, Option.getD_some,
    Bool.and_eq_true, decide_eq_true_eq, low, high, and_assoc]
  rfl

end Conditions

/-! ### Answers -/

theorem dumpRows_map {α : Type} {rows : List α} {row : α → List (String × Obj)} {document : α → Document}
    (dumped : ∀ a ∈ rows, dumps (.obj (row a)) = .ok (document a)) :
    dumpRows (rows.map row) = .ok (rows.map document) := by
  induction rows with
  | nil => rfl
  | cons a rest ih =>
      rw [List.map_cons, dumpRows, dumped a List.mem_cons_self, ih fun b mem => dumped b (List.mem_cons_of_mem _ mem)]
      rfl

section Selection

variable {store : Store} {soql : Soql} {q : Query} {version : String}

/-- The documents of the records that a query finds, if Python can hold so many. -/
theorem answer_eq (readable : Readable soql q) (printable : Char → Bool) {document : OpportunityRecord → Document}
    (dumped : ∀ opp ∈ store.chosen q, dumps (.obj (store.project opp q.fields version)) = .ok (document opp)) :
    store.answer printable version soql.text =
      if short : ((store.chosen q).map document).length < 2 ^ 63 then .ok ⟨(store.chosen q).map document, short⟩
      else .error (.raised (.other "MemoryError" "")) := by
  have rows : store.runQuery q version = (store.chosen q).map fun opp => store.project opp q.fields version := by
    rw [store.runQuery_eq]
    cases readable <;> exact congrArg (List.map _) (List.take_of_length_le (le_refl _))
  rw [Store.answer, readable.parse]
  simp only [rows, dumpRows_map dumped]

theorem documents_of_answer (readable : Readable soql q) {printable : Char → Bool} {documents : PyList Document}
    {document : OpportunityRecord → Document}
    (dumped : ∀ opp ∈ store.chosen q, dumps (.obj (store.project opp q.fields version)) = .ok (document opp))
    (answered : store.answer printable version soql.text = .ok documents) :
    documents.items = (store.chosen q).map document := by
  rw [answer_eq readable printable dumped] at answered
  split at answered
  · cases answered
    rfl
  · cases answered

/-- **What a query answers**: records that both clients read like those which it selects from the deals of the store. -/
theorem answer_selects (shown : store.Shown) (readable : Readable soql q) {printable : Char → Bool}
    {documents : PyList Document} (answered : store.answer printable version soql.text = .ok documents) :
    ∃ records, soql.Selects store.deals records ∧ List.Forall₂ Alike documents.items records ∧
      documents.items.length ≤ store.deals.length := by
  have all : ∀ opp ∈ store.chosen q, opp ∈ store.records := fun opp mem =>
    (List.mem_filter.mp ((store.perm_chosen q).subset mem)).1
  have few : (store.chosen q).length ≤ store.deals.length := by
    rw [(store.perm_chosen q).length_eq, Store.deals, List.length_map]
    exact List.length_filter_le _ _
  -- a query of the rows of some deals
  have won : ∀ condition : Deal → Bool, q.fields = (windowQuery 0 0).fields → q.orderBy = wonQuery.orderBy →
      (∀ opp ∈ store.records, store.Satisfies q.conditions opp ↔ condition (store.dealOf opp) = true) →
      documents.items.length ≤ store.deals.length ∧
        List.Forall₂ Alike documents.items ((Salesforce.selected condition store.deals).map fun d => d.row.json) := by
    intro condition fields orderBy same
    have dumped : ∀ opp ∈ store.chosen q,
        dumps (.obj (store.project opp q.fields version)) = .ok (wonDocument version store opp) := by
      intro opp mem
      rw [fields, project_won]
      exact dumps_won version (shown.finite opp (all opp mem))
    have items := documents_of_answer readable dumped answered
    rw [items, ← shown.chosen_deals orderBy same, List.map_map, List.length_map, List.forall₂_map_left_iff,
      List.forall₂_map_right_iff, List.forall₂_same]
    refine ⟨few, fun opp mem => ?_⟩
    obtain ⟨oppId, -, tidy⟩ := shown.tidy.records (all opp mem)
    exact alike_won version tidy
  cases readable with
  | won =>
      obtain ⟨short, alike⟩ := won (fun d => d.isWon) rfl rfl fun opp _ => satisfies_wonQuery
      exact ⟨_, rfl, alike, short⟩
  | @wonBetween from_ upper first second =>
      obtain ⟨short, alike⟩ := won (inWindow (truncateSecond from_) (truncateSecond upper)) rfl rfl fun opp mem =>
        (satisfies_windowQuery store _ _ opp).trans (insideWindow_iff shown mem from_ upper)
      have parsed : ∀ {t : Int}, Dated t → parseDateTime (Salesforce.literal t) = some (truncateSecond t) := by
        intro t dated
        rw [parseDateTime_literal]
        exact if_pos ⟨by have := dated.1; unfold yearOf at this; omega, dated.2⟩
      exact ⟨_, ⟨_, _, parsed first, parsed second, rfl⟩, alike, short⟩
  | @stages ids ne formed =>
      have dumped : ∀ opp ∈ store.chosen (stagesQuery ids),
          dumps (.obj (store.project opp (stagesQuery ids).fields version)) = .ok (.obj (stageMembers version opp)) := by
        intro opp mem
        rw [project_stages]
        exact dumps_stage version
      have items := documents_of_answer (.stages ne formed) dumped answered
      have perm : ((store.chosen (stagesQuery ids)).map store.dealOf).Perm
          (store.deals.filter fun d => decide (d.id ∈ ids)) :=
        Store.perm_chosen_deals fun opp mem => satisfies_stagesQuery shown.tidy mem ids
      refine ⟨((store.chosen (stagesQuery ids)).map store.dealOf).map stageRecord, perm.map stageRecord, ?_, ?_⟩
      · rw [items, List.map_map, List.forall₂_map_left_iff, List.forall₂_map_right_iff, List.forall₂_same]
        intro opp mem
        obtain ⟨oppId, -, tidy⟩ := shown.tidy.records (all opp mem)
        exact alike_stage version tidy
      · rw [items, List.length_map]
        exact few

end Selection

/-! ### Queries over the network -/

/-- A write at the site's time. -/
def edited (site : Site) (data : StoreState) : Prop := Edits site.now site.data data

section Network

variable {config : Config} {printable : Char → Bool} {E R : Type}

theorem shown_moves {allowed : Site → StoreState → Prop}
    (keeps : ∀ site data, allowed site data → site.data.store.Shown → data.store.Shown) {site site' : Site}
    (shown : site.data.store.Shown) (moves : ReflTransGen (SiteMoves config printable allowed) site site') :
    site'.data.store.Shown := by
  induction moves with
  | refl => exact shown
  | tail _ move ih =>
      cases move with
      | server => exact ih
      | writes write => exact keeps _ _ write ih
      | clock => exact ih

/-- What a query came to: an error, what is read of an answer from the deals of one moment between its
start and its end, or nothing yet, with more deals than fuel. -/
inductive Atomic (config : Config) (printable : Char → Bool) (allowed : Site → StoreState → Prop) (soql : Soql)
    (reads : List Document → List R → Prop) (fuel : Nat) (site site' : Site) : Option (Except E (List R)) → Prop
  | failed (err : E) : Atomic config printable allowed soql reads fuel site site' (some (.error err))
  | read {moment : Site} {records : List Document} {recs : List R} :
      ReflTransGen (SiteMoves config printable allowed) site moment →
      ReflTransGen (SiteMoves config printable allowed) moment site' →
      soql.Selects moment.data.store.deals records → reads records recs →
      Atomic config printable allowed soql reads fuel site site' (some (.ok recs))
  | unfinished {moment : Site} : ReflTransGen (SiteMoves config printable allowed) site moment →
      fuel ≤ moment.data.store.deals.length → Atomic config printable allowed soql reads fuel site site' none

/-- A client that reads alike what is alike reads the deals of one moment. -/
theorem atomic_of_snapshot {allowed : Site → StoreState → Prop}
    (keeps : ∀ site data, allowed site data → site.data.store.Shown → data.store.Shown) {soql : Soql} {q : Query}
    (readable : Readable soql q) {version : String} {decode : Document → Option R}
    {reads : List Document → List R → Prop}
    (alike : ∀ {documents records recs}, List.Forall₂ Alike documents records → documents.mapM decode = some recs →
      reads records recs)
    {fuel : Nat} {site site' : Site} (shown : site.data.store.Shown) {value : Option (Except E (List R))}
    (snapshot : Snapshot config printable allowed version soql.text decode fuel site site' value) :
    Atomic config printable allowed soql reads fuel site site' value := by
  cases snapshot with
  | failed err => exact .failed err
  | read before after answered decoded =>
      obtain ⟨records, selects, same, -⟩ := answer_selects (shown_moves keeps shown before) readable answered
      exact .read before after selects (alike same decoded)
  | unfinished before answered many =>
      obtain ⟨records, -, -, few⟩ := answer_selects (shown_moves keeps shown before) readable answered
      exact .unfinished before (many.trans few)

end Network

/-- Go decodes alike what is alike. -/
theorem unmarshalAll_of_alike {documents records : List Document} {opps : List (Opportunity Json.Token)}
    (alike : List.Forall₂ Alike documents records)
    (decoded : documents.mapM (fun v => (Opportunity.unmarshal v).toOption) = some opps) :
    unmarshalAll records = .ok opps := by
  have same : unmarshalAll documents = unmarshalAll records := by
    clear decoded
    induction alike with
    | nil => rfl
    | cons first _ ih => rw [unmarshalAll, unmarshalAll, first.unmarshalled, ih]
  rw [← toOption_unmarshalAll, same] at decoded
  cases read : unmarshalAll records with
  | error err =>
      rw [read] at decoded
      cases decoded
  | ok os =>
      rw [read] at decoded
      cases decoded
      rfl

/-- Python decodes records of which it reads the same. -/
theorem loadAll_of_alike {documents records : List Document} {objs : List Obj}
    (alike : List.Forall₂ Alike documents records)
    (decoded : documents.mapM (fun record => (load record).toOption) = some objs) :
    ∃ objs', loadAll records = .ok objs' ∧ List.Forall₂ ReadAlike objs objs' := by
  induction alike generalizing objs with
  | nil =>
      cases decoded
      exact ⟨[], rfl, .nil⟩
  | @cons document record documents records same _ ih =>
      rw [List.mapM_cons] at decoded
      obtain ⟨first, read, rest⟩ := Option.bind_eq_some_iff.mp decoded
      obtain ⟨others, later, all⟩ := Option.bind_eq_some_iff.mp rest
      cases all
      obtain ⟨obj, obj', loaded, loaded', readAlike⟩ := same.loaded
      obtain ⟨objs', loadedAll, rest_⟩ := ih later
      rw [loaded] at read
      cases read
      refine ⟨obj' :: objs', ?_, .cons readAlike rest_⟩
      rw [loadAll, loaded', loadedAll]
      rfl

/-- **A query over the network reads all of its records at once.** Whatever is written, served or
reset between its pages, both clients get an error or what they make of the records which the query
selects from the deals of one moment. -/
theorem queryAll_atomic (config : Config) (printable : Char → Bool) (apiVersion clientId clientSecret : String)
    {soql : Soql} {q : Query} (readable : Readable soql q) {site : Site} (shown : site.data.store.Shown) {fuel : Nat}
    (some_ : 0 < fuel) :
    (∀ cached calls value cached' site',
      Traced (SiteServes config printable) (SiteMoves config printable edited)
        ((Salesforce.client apiVersion clientId clientSecret).queryAll fuel cached soql.text) site calls (value, cached')
        site' →
      Atomic config printable edited soql (fun records opps => unmarshalAll records = .ok opps) fuel site site' value) ∧
    ∀ cached calls value cached' site',
      Traced (SiteServes config printable) (SiteMoves config printable edited)
        ((Reconciler.client printable apiVersion clientId clientSecret).queryAll fuel cached soql.text) site calls
        (value, cached') site' →
      Atomic config printable edited soql
        (fun records objs => ∃ objs', loadAll records = .ok objs' ∧ List.Forall₂ ReadAlike objs objs') fuel site site'
        value := by
  have keeps : ∀ site data, edited site data → site.data.store.Shown → data.store.Shown := fun _ _ edit => edit.shown
  constructor
  · intro cached calls value cached' site' run
    exact atomic_of_snapshot keeps readable unmarshalAll_of_alike shown
      (queryAll_snapshot (Salesforce.reads_client apiVersion clientId clientSecret) some_ run)
  · intro cached calls value cached' site' run
    exact atomic_of_snapshot keeps readable loadAll_of_alike shown
      (queryAll_snapshot (Reconciler.reads_client printable apiVersion clientId clientSecret) some_ run)

/-! ### Runs over one deal and over two -/

def renewal : OpportunityData :=
  { OpportunityData.empty with id := some "006A00000000001AAA", stageName := some (some "Closed Won") }

/-- One deal, won in the first second of 1970. -/
def renewalSite (now : Int) : Site where
  data := (StoreState.initial.upsertOpportunity (clockOf 0) renewal).2
  app := ⟨["t"], fun _ => none, [], [], 1⟩
  now := now

def renewalRecord : OpportunityRecord :=
  ⟨some "006A00000000001AAA", none, none, none, none, some "Closed Won", some 0, some 0, some 0⟩

/-- A server with one record a page. -/
def renewalConfig : Config := ⟨"id", "secret", 1, le_refl 1, ["66.0"], "org"⟩

theorem renewal_plain : renewal.Plain where
  sound := {
    stamped := fun _ held => by cases held
    created := fun _ held => by cases held
    closes := fun _ held => by cases held }
  whole _ _ held := by cases held
  finite _ held := by cases held

theorem renewal_shown (now : Int) : (renewalSite now).data.store.Shown :=
  Edits.shown (.upsert (by decide) renewal_plain) Store.shown_empty

theorem renewal_records (now : Int) : (renewalSite now).data.store.records = [renewalRecord] := by
  with_unfolding_all rfl

/-- Another deal that is won in the same second. -/
def upsell : OpportunityData := { renewal with id := some "006A00000000002AAA" }

def upsellRecord : OpportunityRecord := { renewalRecord with id := some "006A00000000002AAA" }

def twoSite : Site :=
  { renewalSite 0 with data := ((renewalSite 0).data.upsertOpportunity (clockOf 0) upsell).2 }

theorem two_shown : twoSite.data.store.Shown := by
  have edit : Edits 0 (renewalSite 0).data twoSite.data :=
    .upsert (by decide) ⟨⟨nofun, nofun, nofun⟩, nofun, nofun⟩
  exact edit.shown (renewal_shown 0)

theorem two_records : twoSite.data.store.records = [renewalRecord, upsellRecord] := by
  with_unfolding_all rfl

section Won

variable {soql : Soql} {q : Query}

/-- What a query of the rows of deals answers. -/
theorem won_answer {store : Store} (shown : store.Shown) (readable : Readable soql q)
    (fields : q.fields = wonQuery.fields) (few : (store.chosen q).length < 2 ^ 63) (printable : Char → Bool)
    (version : String) :
    ∃ documents : PyList Document, store.answer printable version soql.text = .ok documents ∧
      documents.items = (store.chosen q).map (wonDocument version store) ∧
      ∀ opp ∈ store.chosen q, Opportunity.unmarshal (wonDocument version store opp) =
        Opportunity.unmarshal (store.dealOf opp).row.json := by
  have all : ∀ opp ∈ store.chosen q, opp ∈ store.records := fun opp mem =>
    (List.mem_filter.mp ((store.perm_chosen q).subset mem)).1
  have dumped : ∀ opp ∈ store.chosen q,
      dumps (.obj (store.project opp q.fields version)) = .ok (wonDocument version store opp) := by
    intro opp among
    rw [fields]
    exact (congrArg (fun members => dumps (.obj members)) (project_won store opp version 0 0)).trans
      (dumps_won version (shown.finite _ (all opp among)))
  have answered := answer_eq readable printable dumped
  refine ⟨_, answered.trans (dif_pos (by rwa [List.length_map])), rfl, fun opp among => ?_⟩
  obtain ⟨oppId, -, tidy⟩ := shown.tidy.records (all opp among)
  exact unmarshal_won version tidy

/-- What a WON query answers that the deal satisfies. -/
theorem renewal_answer (readable : Readable soql q) (fields : q.fields = wonQuery.fields) (now : Int)
    (satisfied : (renewalSite now).data.store.Satisfies q.conditions renewalRecord) (printable : Char → Bool)
    (version : String) :
    ∃ (documents : PyList Document) (document : Document),
      (renewalSite now).answer printable version soql.text = .ok documents ∧ documents.items = [document] ∧
      Opportunity.unmarshal document =
        Opportunity.unmarshal ((renewalSite now).data.store.dealOf renewalRecord).row.json := by
  have shown := renewal_shown now
  have records := renewal_records now
  rw [Site.answer]
  generalize (renewalSite now).data.store = store at shown records satisfied
  have chosen : store.chosen q = [renewalRecord] := by
    have perm := store.perm_chosen q
    rw [records, List.filter_cons, if_pos (decide_eq_true satisfied)] at perm
    exact List.perm_singleton.mp perm
  obtain ⟨documents, answered, items, alike⟩ :=
    won_answer shown readable fields (by rw [chosen]; decide) printable version
  rw [chosen] at items alike
  exact ⟨documents, _, answered, items, alike _ (List.mem_singleton_self _)⟩

/-- The WON query answers both deals, in some order. -/
theorem two_answer (printable : Char → Bool) (version : String) :
    ∃ (documents : PyList Document) (first second : Document) (o o' : Opportunity Json.Token),
      twoSite.answer printable version Soql.won.text = .ok documents ∧ documents.items = [first, second] ∧
      Opportunity.unmarshal first = .ok o ∧ Opportunity.unmarshal second = .ok o' := by
  have shown := two_shown
  have records := two_records
  rw [Site.answer]
  generalize twoSite.data.store = store at shown records
  have won : ∀ opp ∈ store.records, store.Satisfies wonQuery.conditions opp := by
    intro opp mem
    rw [records] at mem
    refine satisfies_wonQuery.mpr ?_
    rcases List.mem_pair.mp mem with rfl | rfl
    · exact decide_eq_true (show renewalRecord.stageName = some wonStage from rfl)
    · exact decide_eq_true (show upsellRecord.stageName = some wonStage from rfl)
  have two : (store.chosen wonQuery).length = 2 := by
    have all : store.records.filter (store.Satisfies wonQuery.conditions) = store.records :=
      List.filter_eq_self.mpr fun opp mem => decide_eq_true (won opp mem)
    rw [(store.perm_chosen wonQuery).length_eq, all, records]
    rfl
  obtain ⟨documents, answered, items, alike⟩ := won_answer shown .won rfl (by rw [two]; decide) printable version
  obtain ⟨a, b, chosen⟩ := List.length_eq_two.mp two
  rw [chosen] at items alike
  exact ⟨documents, _, _, _, _, answered, items, (alike a (by simp)).trans (unmarshal_row _),
    (alike b (by simp)).trans (unmarshal_row _)⟩

end Won

/-! ### Their requests -/

section Requests

variable {printable : Char → Bool} {env : Site → Site → Prop}
  {runQuery : (version soql : String) → Except Failure (PyList Document)} {app : App}

theorem known_version : versionPath "/services/data/v66.0/query".toList =
    some (['6', '6', '.', '0'], "/query".toList) := by
  with_unfolding_all rfl

theorem served_version : String.ofList ['6', '6', '.', '0'] ∈ renewalConfig.apiVersions := by
  with_unfolding_all decide

theorem authorised_token (token : app.tokens = ["t"]) : authorised ("Bearer " ++ "t") app = true := by
  rw [authorised, String.toList_append, token]
  with_unfolding_all rfl

/-- A valid token gets the first page. -/
theorem data_first (token : app.tokens = ["t"]) (calm : app.queryFaults = []) (text : String) :
    app.data renewalConfig runQuery ("Bearer " ++ "t")
        ((Salesforce.client "v66.0" "id" "secret").queryTarget text) =
      firstPage renewalConfig runQuery "v66.0" text app := by
  obtain ⟨tokens, cursors, tokenFaults, queryFaults, locatorIds⟩ := app
  obtain rfl : queryFaults = [] := calm
  have valid := authorised_token token
  have path : versionPath ((Salesforce.client "v66.0" "id" "secret").queryTarget text).path.toList =
      some (['6', '6', '.', '0'], ['/', 'q', 'u', 'e', 'r', 'y']) := by
    rw [Client.queryTarget, String.toList_append, String.toList_append]
    with_unfolding_all rfl
  have first : ['/', 'q', 'u', 'e', 'r', 'y'].rdropWhile (· = '/') = "/query".toList := by with_unfolding_all rfl
  rw [App.data, path]
  simp only [served_version, valid, first, not_true_eq_false, if_false, if_true]
  rfl

/-- A valid token gets a later page. -/
theorem data_next (token : app.tokens = ["t"]) (calm : app.queryFaults = []) (id : Nat) {offset : Nat}
    (short : offset < 10 ^ maxStrDigits) :
    app.data renewalConfig runQuery ("Bearer " ++ "t") ⟨nextRecordsUrl "v66.0" (locatorName id) offset, []⟩ =
      (.ok (nextPage renewalConfig "v66.0" (locatorName id) offset app).1,
        (nextPage renewalConfig "v66.0" (locatorName id) offset app).2) := by
  obtain ⟨tokens, cursors, tokenFaults, queryFaults, locatorIds⟩ := app
  obtain rfl : queryFaults = [] := calm
  have valid := authorised_token token
  have again := (of_versionPath known_version).2 ("/query/".toList ++ ((locatorName id).toList ++
    ('-' :: Nat.toDigits 10 offset))) rfl
  rw [← nextRecordsUrl_toList] at again
  have later := locator_ne_query id offset
  rw [App.data]
  have path : versionPath (nextRecordsUrl "v66.0" (locatorName id) offset).toList = _ := again
  rw [path]
  simp only [served_version, valid, not_true_eq_false, if_false, takeFault, later, locatorPath_name, intOf_eq short,
    String.ofList_toList]

/-- A page that is served is read. -/
theorem page_exec {target : Target} {document : Document} {site₀ site : Site} {app' : App}
    (moves : ReflTransGen env site₀ site)
    (served : site.app.data renewalConfig (site.answer printable) ("Bearer " ++ "t") target =
      (.ok (reply 200 document), app')) :
    ∃ calls, Traced (SiteServes renewalConfig printable) env
      ((Salesforce.client "v66.0" "id" "secret").getJSON (some ⟨"t", "http://org"⟩) target) site₀ calls
      ((Salesforce.client "v66.0" "id" "secret").readPage (reply 200 document), some ⟨"t", "http://org"⟩)
      { site with app := app' } := by
  have asked : SiteServes renewalConfig printable (.get (trimSlashes "http://org") ("Bearer " ++ "t") target) site
      (.ok (reply 200 document)) { site with app := app' } := by
    have get := @Serves.get renewalConfig (site.answer printable) (trimSlashes "http://org")
      ("Bearer " ++ "t") target site.app
    rw [served] at get
    exact ⟨_, get, rfl⟩
  exact ⟨_, .call moves asked .ret⟩

end Requests

/-- Go's query of the site returns the deal. -/
theorem renewal_run {soql : Soql} {q : Query} (readable : Readable soql q) (fields : q.fields = wonQuery.fields)
    (now : Int) (satisfied : (renewalSite now).data.store.Satisfies q.conditions renewalRecord)
    (printable : Char → Bool) (env : Site → Site → Prop) :
    ∃ calls o cached app,
      Opportunity.unmarshal ((renewalSite now).data.store.dealOf renewalRecord).row.json = .ok o ∧
      Traced (SiteServes renewalConfig printable) env
        ((Salesforce.client "v66.0" "id" "secret").queryAll 1 (some ⟨"t", "http://org"⟩) soql.text) (renewalSite now)
        calls (some (.ok [o]), cached) { renewalSite now with app := app } := by
  obtain ⟨documents, document, answered, items, alike⟩ := renewal_answer readable fields now satisfied printable "v66.0"
  obtain ⟨o, decoded⟩ : ∃ o, Opportunity.unmarshal ((renewalSite now).data.store.dealOf renewalRecord).row.json = .ok o :=
    ⟨_, unmarshal_row _⟩
  rw [decoded] at alike
  generalize soql.text = text at answered
  have served := @data_first ((renewalSite now).answer printable) (renewalSite now).app rfl rfl text
  rw [firstPage, answered] at served
  have one : pageRecords renewalConfig documents.items 0 = [document] := by
    rw [items]
    rfl
  have last : lastPage renewalConfig documents.items 0 = true := by
    rw [items]
    rfl
  have read := (Salesforce.reads_client "v66.0" "id" "secret").reads renewalConfig "v66.0"
    (locatorName (renewalSite now).app.locatorIds) documents 0 [o] (by rw [one, List.mapM_cons, alike]; rfl)
  rw [last, if_pos rfl] at read
  obtain ⟨calls, page⟩ := @page_exec printable env _ _ _ _ _ .refl served
  rw [read] at page
  exact ⟨_, o, _, _, decoded, page.bind .ret⟩

/-- Two records make two pages. -/
theorem pages_two {documents : PyList Document} {first second : Document} (items : documents.items = [first, second]) :
    pageRecords renewalConfig documents.items 0 = [first] ∧ lastPage renewalConfig documents.items 0 = false ∧
      pageRecords renewalConfig documents.items 1 = [second] ∧ lastPage renewalConfig documents.items 1 = true := by
  rw [items]
  exact ⟨rfl, rfl, rfl, rfl⟩

/-- Another client deletes the second deal. -/
theorem two_deleted (printable : Char → Bool) (app : App) :
    SiteMoves renewalConfig printable edited { twoSite with app := app }
      { twoSite with data := (twoSite.data.deleteOpportunity "006A00000000002AAA").2, app := app } :=
  .writes (.delete "006A00000000002AAA")

/-- Go's query of two deals, of which the second is deleted between its pages, is one of both. -/
theorem queryAll_atomic_renewal :
    ∃ calls o o' cached site',
      Traced (SiteServes renewalConfig fun _ => true) (SiteMoves renewalConfig (fun _ => true) edited)
        ((Salesforce.client "v66.0" "id" "secret").queryAll 2 (some ⟨"t", "http://org"⟩) Soql.won.text) twoSite
        calls (some (.ok [o, o']), cached) site' ∧
      site'.data.store.records = [renewalRecord] ∧
      Atomic renewalConfig (fun _ => true) edited .won (fun records opps => unmarshalAll records = .ok opps) 2
        twoSite site' (some (.ok [o, o']) : Option (Except ClientError (List (Opportunity Json.Token)))) := by
  obtain ⟨documents, first, second, o, o', answered, items, decoded, decoded'⟩ := two_answer (fun _ => true) "v66.0"
  let c := Salesforce.client "v66.0" "id" "secret"
  let app : App := { twoSite.app with
    cursors := Function.update twoSite.app.cursors (locatorName 1) (some documents), locatorIds := 2 }
  obtain ⟨records, open_, records', done⟩ := pages_two items
  have inside : 1 < documents.items.length := by
    rw [items]
    exact Nat.one_lt_two
  have served : twoSite.app.data renewalConfig (twoSite.answer fun _ => true) ("Bearer " ++ "t")
      (c.queryTarget Soql.won.text) =
        (.ok (reply 200 (pageDocument renewalConfig "v66.0" (locatorName 1) documents.items 0)), app) := by
    rw [data_first rfl rfl, firstPage, answered]
    simp only [page, open_]
    rfl
  have read := (Salesforce.reads_client "v66.0" "id" "secret").reads renewalConfig "v66.0" (locatorName 1)
    documents 0 [o] (by rw [records, List.mapM_cons, decoded]; rfl)
  rw [open_, if_neg Bool.false_ne_true] at read
  obtain ⟨calls, page₁⟩ := @page_exec (fun _ => true) (SiteMoves renewalConfig (fun _ => true) edited) _ _ _ _ _
    .refl served
  rw [read] at page₁
  have served' : app.data renewalConfig
      (Site.answer (fun _ => true)
        { twoSite with data := (twoSite.data.deleteOpportunity "006A00000000002AAA").2 })
      ("Bearer " ++ "t") ⟨nextRecordsUrl "v66.0" (locatorName 1) 1, []⟩ =
        (.ok (reply 200 (pageDocument renewalConfig "v66.0" (locatorName 1) documents.items 1)),
          { app with cursors := Function.update app.cursors (locatorName 1) none }) := by
    rw [data_next rfl rfl 1 (inside.trans documents.length_lt), nextPage]
    simp only [app, Function.update_self, page, done, if_true]
  have read' := (Salesforce.reads_client "v66.0" "id" "secret").reads renewalConfig "v66.0" (locatorName 1)
    documents 1 [o'] (by rw [records', List.mapM_cons, decoded']; rfl)
  rw [done, if_pos rfl] at read'
  obtain ⟨calls', page₂⟩ := @page_exec (fun _ => true) (SiteMoves renewalConfig (fun _ => true) edited) _ _ _ _ _
    (.single (two_deleted _ app)) served'
  rw [read'] at page₂
  have later : Traced (SiteServes renewalConfig fun _ => true) (SiteMoves renewalConfig (fun _ => true) edited)
      (follow c 1 [] (.ok ⟨[o], some (nextRecordsUrl "v66.0" (locatorName 1) 1)⟩, some ⟨"t", "http://org"⟩))
      { twoSite with app := app } (calls' ++ []) (some (.ok [o, o']), some ⟨"t", "http://org"⟩) _ := page₂.bind .ret
  have run := page₁.bind later
  have atomic := queryAll_atomic renewalConfig (fun _ => true) "v66.0" "id" "secret" .won two_shown Nat.two_pos
  exact ⟨_, o, o', _, _, run, by with_unfolding_all rfl, atomic.1 _ _ _ _ _ run⟩

end Relay.FakeSalesforce
