import Relay.Calendar.Order
import Relay.Effect.Joint
import Relay.Effect.Sum
import Relay.FakeSalesforce.Answers
import Relay.Ingest.NoSkip

/-!
The poller over the network.

The poller's source is the Go client, whose query is a request for each page, and
Salesforce is the fake server with its records. `no_deal_skipped_over_network` is
`no_deal_skipped` there: what the client relies on is what the server's writes keep.
A query reads the deals of one moment, and a row that appears later is stamped no
earlier than the clock that the poller has read.
-/

namespace Relay.Ingest

open Relay.Json Relay.Effect Relay.Platform Relay.Salesforce Relay.Rest Relay.Python Relay.Calendar Relay.FakeSalesforce
  Relation

/-! ### The poller and its source -/

/-- A program that makes requests of its own to Salesforce. -/
abbrev Net (α : Type) := Prog (Sum.elim Request.Answer Rest.Call.Answer) α

/-- What a query comes to: the rows, an error, or nothing yet. -/
abbrev Rows := Option (Except String (List (Salesforce.Opportunity Json.Token)))

/-- `Run` with a source of rows. -/
def Poller.runWith (source : Soql → Net Rows) (p : Poller) : Net (Option (Result × Option RunError)) := do
  match ← p.watermark.get.inl with
  | .error err => return some (⟨zeroTime, zeroTime, 0, 0, []⟩, some (.readWatermark err))
  | .ok from_ => do
      match ← Act.serverTime.inl with
      | .error err => return some (⟨from_, from_, 0, 0, []⟩, some (.serverTime err))
      | .ok serverNow =>
          let upper := truncateSecond (serverNow - p.lag)
          if upper ≤ from_ then return some (⟨from_, from_, 0, 0, []⟩, none)
          else
            match ← source (query from_ upper) with
            | none => return none
            | some (.error err) => return some (⟨from_, from_, 0, 0, []⟩, some (.query err))
            | some (.ok rows) => do
                let result ← (p.publishRows from_ upper rows).inl
                return some result

end Relay.Ingest

namespace Relay.Salesforce.ClientError

/-- `Error()` -/
def text : ClientError → String
  | authError status body => "salesforce token request failed: HTTP " ++ toString status ++ " " ++ body
  | apiError status body => "salesforce API error: HTTP " ++ toString status ++ " " ++ body
  | other message => message

end Relay.Salesforce.ClientError

namespace Relay.Ingest

open Relay.Json Relay.Effect Relay.Platform Relay.Salesforce Relay.Rest Relay.Python Relay.Calendar Relay.FakeSalesforce
  Relation

/-- The client's `QueryAll`, with the token that is cached. -/
def restSource (c : Client ClientError AccessToken (Salesforce.Opportunity Json.Token)) (fuel : Nat)
    (cached : Option AccessToken) (soql : Soql) : Net Rows := do
  let (value, _) ← (c.queryAll fuel cached soql.text).inr
  return value.map (Except.mapError ClientError.text)

/-- With a source that answers a query at once it is the poller's run. -/
theorem runWith_queryAll (p : Poller) :
    p.runWith (fun soql => do
      let rows ← (queryAll soql).inl
      return some rows) =
      (do
        let result ← p.run.inl
        return some result) := by
  -- call by call: where a call returns early, so does the other program
  rw [Poller.run, Prog.inl_bind, Prog.bind_assoc, Poller.runWith]
  refine congrArg _ (funext fun result => ?_)
  cases result with
  | error err => rfl
  | ok from_ =>
      dsimp only
      rw [Prog.inl_bind, Prog.bind_assoc]
      refine congrArg _ (funext fun reply => ?_)
      cases reply with
      | error err => rfl
      | ok serverNow =>
          dsimp only
          split
          · rfl
          · rw [Prog.inl_bind, Prog.bind_assoc, Prog.bind_assoc]
            refine congrArg _ (funext fun answer => ?_)
            cases answer with
            | error err => rfl
            | ok rows => rfl

/-! ### The world with the server -/

/-- The other services, and the server; the org is what the server shows. -/
structure Deployed where
  others : World
  site : Site

def Deployed.view (v : Deployed) : World := { v.others with org := v.site.data.store.deals }

/-- A write at the site's time that forces no stamp. -/
def bumped (site : Site) (data : StoreState) : Prop := Bumps site.now site.data data

section Network

variable (S : Services) (config : Config) (printable : Char → Bool) (p : Poller)

/-- The clock that Salesforce shows is the site's, and a request is served by the site. -/
def Replies : (request : Request ⊕ Rest.Call) → Deployed → Sum.elim Request.Answer Rest.Call.Answer request → Deployed → Prop
  | .inl request, v, reply, v' =>
      S.Answers request v.view reply v'.view ∧ v'.site = v.site ∧
        ∀ t ∈ v'.others.serverTimes, t ∈ v.others.serverTimes ∨ t = 1000 * clockOf v.site.now
  | .inr call, v, reply, v' => SiteServes config printable call v.site reply v'.site ∧ v'.others = v.others

/-- What happens around the runs: the other services go on but leave the clock and the watermark alone,
and the server is used, written to and grows older. -/
inductive Surroundings : Deployed → Deployed → Prop where
  | others {v : Deployed} {w : World} : v.others.sqs.accepted ⊆ w.sqs.accepted →
      w.serverTimes = v.others.serverTimes →
      w.parameters p.watermark.name = v.others.parameters p.watermark.name → Surroundings v { v with others := w }
  | site {v : Deployed} {site' : Site} : SiteMoves config printable bumped v.site site' → InRange site'.now →
      Surroundings v { v with site := site' }

/-- The poller's runs, each with the token that is cached when it starts. -/
inductive NetRuns (apiVersion clientId clientSecret : String) : Unit → Net (Option (Result × Option RunError)) → Prop where
  | run (fuel : Nat) (cached : Option AccessToken) : 0 < fuel → NetRuns apiVersion clientId clientSecret ()
      (p.runWith (restSource (Salesforce.client apiVersion clientId clientSecret) fuel cached))

/-! ### What is kept -/

/-- The watermark is never before the year 1. -/
def dawned : Contract World Request.Answer where
  answers := S.Answers
  inv w := ∀ t, p.watermark.stored w = some t → zeroTime ≤ t
  rely _ _ := True
  guar _ _ := True
  rely_refl _ := trivial
  rely_trans _ _ := trivial

/-- What holds of the server, and of what the poller has seen of its clock. -/
structure Keeping (v : Deployed) : Prop where
  shown : v.site.data.store.Shown
  inRange : InRange v.site.now
  past : ∀ t ∈ v.others.serverTimes, t ≤ 1000 * clockOf v.site.now

/-- The contract of a run over the network. -/
def netPolls (initial : Int) : Contract Deployed (Sum.elim Request.Answer Rest.Call.Answer) where
  answers := Replies S config printable
  inv v := ((polls S p initial).both (dawned S p)).inv v.view ∧ Keeping v
  rely v v' := Moves p.lag v.view v'.view ∧ ReflTransGen (SiteMoves config printable bumped) v.site v'.site
  guar v v' := Moves p.lag v.view v'.view ∧ ReflTransGen (SiteMoves config printable bumped) v.site v'.site
  rely_refl _ := ⟨Moves.refl _ _, .refl⟩
  rely_trans first second := ⟨first.1.trans second.1, first.2.trans second.2⟩

end Network

/-! ### The server's rows -/

section Server

variable {config : Config} {printable : Char → Bool} {site site' : Site}

theorem shown_bumped (shown : site.data.store.Shown)
    (moves : ReflTransGen (SiteMoves config printable bumped) site site') : site'.data.store.Shown :=
  shown_moves (fun _ _ bump => bump.edits.shown) shown moves

/-- While the server is used, its clock goes on and no row appears behind it. -/
theorem rows_of_moves (shown : site.data.store.Shown)
    (moves : ReflTransGen (SiteMoves config printable bumped) site site') :
    site.now ≤ site'.now ∧ ∀ d ∈ site'.data.store.deals, d ∈ site.data.store.deals ∨ 1000 * clockOf site.now ≤ d.stamp := by
  induction moves with
  | refl => exact ⟨le_refl _, fun d mem => .inl mem⟩
  | @tail mid last before move ih =>
      obtain ⟨older, rows⟩ := ih
      cases move with
      | server => exact ⟨older, rows⟩
      | writes bump =>
          refine ⟨older, fun d mem => ?_⟩
          rcases Bumps.rows bump (shown_bumped shown before) mem with there | stamped
          · exact rows d there
          · have later : clockOf site.now ≤ clockOf mid.now := by
              unfold clockOf
              omega
            exact .inr (by omega)
      | clock on => exact ⟨older.trans on, rows⟩

/-- The part of the world that is not the server sees only rows that are not late. -/
theorem moves_of_site {others : World} {lag : Int} (late : 0 ≤ lag) (shown : site.data.store.Shown)
    (past : ∀ t ∈ others.serverTimes, t ≤ 1000 * clockOf site.now)
    (moves : ReflTransGen (SiteMoves config printable bumped) site site') :
    Moves lag (Deployed.view ⟨others, site⟩) (Deployed.view ⟨others, site'⟩) where
  sends := List.Subset.refl _
  clock := List.Subset.refl _
  rows d mem := by
    refine ((rows_of_moves shown moves).2 d mem).imp_right fun stamped t known => ?_
    have := past t known
    omega

end Server

/-! ### Runs -/

section Programs

variable {S : Services} {config : Config} {printable : Char → Bool} {p : Poller} {initial : Int} {α β : Type} {v : Deployed}

theorem net_sequence {first : β → Deployed → Prop} {post : α → Deployed → Prop} {program : Net β} {next : β → Net α}
    (holds : (netPolls S config printable p initial).inv v)
    (start : Keeps (netPolls S config printable p initial) first program v)
    (rest : ∀ value v₁, (netPolls S config printable p initial).inv v₁ →
      (netPolls S config printable p initial).rely v v₁ → first value v₁ →
      Keeps (netPolls S config printable p initial) post (next value) v₁) :
    Keeps (netPolls S config printable p initial) post (program >>= next) v :=
  Keeps.sequence (C := netPolls S config printable p initial) (fun _ _ guar => guar) holds start rest

/-- What a program does with the other services, it does next to the server. -/
theorem lift_keeps {post : α → World → Prop} {program : Act α}
    (keeps : Keeps ((polls S p initial).both (dawned S p)) post program v.view) :
    Keeps (netPolls S config printable p initial) (fun value v' => post value v'.view) program.inl v := by
  refine Keeps.ofLeft (C := (polls S p initial).both (dawned S p)) (D := netPolls S config printable p initial)
    (fun _ _ moved => ⟨moved.1, trivial⟩) (fun _ inv => inv.1) ?_ (Calls.any program) keeps
  rintro request ⟨others, site⟩ answer ⟨others', site'⟩ - ⟨-, keeping⟩ ⟨answered, rfl, times⟩
  refine ⟨answered, fun inv' guar => ⟨⟨inv', keeping.shown, keeping.inRange, fun t known => ?_⟩, guar.1, .refl⟩⟩
  rcases times t known with there | rfl
  · exact keeping.past t there
  · exact le_refl _

theorem get_dawned (w : World) :
    Keeps (dawned S p) (fun result _ => ∀ t, result = .ok t → zeroTime ≤ t) p.watermark.get w := by
  refine Keeps.observe (C := dawned S p) (fun _ _ _ answered => answered.1) (fun _ => trivial)
    fun w₁ _ inv₁ answer answered => ?_
  have stored := answered.2
  rcases answer with (_ | err) | value
  · intro t ok
    cases ok
    exact inv₁ _ (by rw [SSMWatermark.stored, stored])
  · intro t ok
    cases ok
  · intro t ok
    refine inv₁ t ?_
    unfold readDateTime at ok
    split at ok
    · rename_i t' parsed
      cases ok
      rw [SSMWatermark.stored, stored]
      exact parsed
    · cases ok

/-- A reading of the clock is known from then on. -/
theorem serverTime_keeps (w : World) :
    Keeps ((polls S p initial).both (dawned S p)) (fun reply w => ∀ now, reply = .ok now → now ∈ w.serverTimes)
      Act.serverTime w := by
  intro w₁ _ inv₁ reply w₂ answered
  have moved : Moves p.lag w₁ w₂ := by
    rw [answered]
    refine ⟨List.Subset.refl _, ?_, fun _ mem => .inl mem⟩
    cases reply with
    | error err => exact List.Subset.refl _
    | ok now => exact fun t mem => List.mem_append_left _ mem
  have same : w₂.parameters = w₁.parameters := by rw [answered]
  refine ⟨⟨inv_moves inv₁.1 moved (by rw [same]), fun t stored => inv₁.2 t ?_⟩, ⟨moved, trivial⟩, fun now ok => ?_⟩
  · rw [← stored, SSMWatermark.stored, SSMWatermark.stored, same]
  · cases ok
    rw [answered]
    exact List.mem_append_right _ List.mem_cons_self

/-- The calls after the query: what is stored as the watermark is not before the year 1. -/
inductive Publishing (p : Poller) : Request → Prop where
  | clock : Publishing p .timeNow
  | send (entries : List Sqs.Entry) : Publishing p (.sendMessageBatch .main entries)
  | put {t : Int} : zeroTime ≤ t → Publishing p (.putParameter p.watermark.name (literal t))

theorem calls_publishRows {from_ upper : Int} (dawn : zeroTime ≤ from_) (open_ : from_ < upper)
    (rows : List (Salesforce.Opportunity Json.Token)) : Calls (Publishing p) (p.publishRows from_ upper rows) := by
  refine (calls_buildEvents .clock rows).bind fun built => ?_
  cases built with
  | error err => exact .ret _
  | ok evs =>
      refine (calls_publishFrom _ (fun chunk _ => .send _) 0).bind fun result => ?_
      obtain ⟨sent, pubErr⟩ := result
      dsimp only
      split
      · unfold Poller.finish
        cases pubErr with
        | some err =>
            dsimp only
            split
            · rename_i t resumes
              have later : from_ < t := by
                unfold resumeAt at resumes
                split at resumes
                · split at resumes
                  · rename_i after
                    cases resumes
                    exact after.2
                  · cases resumes
                · cases resumes
              refine Calls.perform_bind (.put (by omega)) fun reply => ?_
              cases reply <;> exact .ret _
            · exact .ret _
        | none =>
            refine Calls.perform_bind (.put (by omega)) fun reply => ?_
            cases reply <;> exact .ret _
      · exact .ret _

/-- A stored watermark reads back as its second. -/
theorem dawned_put {w : World} {t : Int} (dawn : zeroTime ≤ t)
    (put : w.parameters p.watermark.name = some (literal t)) : (dawned S p).inv w := by
  intro t' stored
  rw [SSMWatermark.stored, put] at stored
  have here : parseDateTime (literal t) = some t' := stored
  rw [parseDateTime_literal] at here
  split at here
  · cases here
    rw [zeroTime, nanosPerSecond] at dawn
    rw [zeroTime, truncateSecond, nanosPerSecond]
    omega
  · cases here

theorem publishing_dawned {request : Request} (publishing : Publishing p request) {w w' : World}
    {answer : request.Answer} (inv : (dawned S p).inv w) (answered : S.Answers request w answer w') :
    (dawned S p).inv w' := by
  cases publishing with
  | clock =>
      obtain rfl : w' = w := answered
      exact inv
  | send entries =>
      obtain ⟨sqs, -, rfl⟩ := answered
      exact inv
  | put dawn =>
      rcases answered.1 with rfl | rfl
      · exact inv
      · exact dawned_put dawn (Function.update_self ..)

theorem publishRows_dawned {from_ upper : Int} (dawn : zeroTime ≤ from_) (open_ : from_ < upper)
    (rows : List (Salesforce.Opportunity Json.Token)) (w : World) :
    Keeps (dawned S p) (fun _ _ => True) (p.publishRows from_ upper rows) w :=
  (calls_publishRows dawn open_ rows).keeps_returns (fun _ _ _ => trivial) (Returns.any _)
    fun _ _ _ _ _ inv publishing answered => ⟨publishing_dawned publishing inv answered, trivial⟩

/-! ### The query -/

/-- A time between two that a literal shows is shown. -/
theorem dated_of_between {t high : Int} (dawn : zeroTime ≤ t) (le : t ≤ 1000 * high) (inRange : InRange high) :
    Dated t := by
  have first : yearOf (zeroTime / nanosPerSecond) = 1 := by with_unfolding_all decide
  have early := yearOf_mono (show zeroTime / nanosPerSecond ≤ t / nanosPerSecond by
    rw [nanosPerSecond]; omega)
  have late := yearOf_mono (show t / nanosPerSecond ≤ high / 1000000 by
    rw [nanosPerSecond]; omega)
  exact ⟨by omega, late.trans inRange.2⟩

/-- A request to the server changes nothing that is shown. -/
theorem net_serves (request : Rest.Call) (v : Deployed) (answer : Rest.Call.Answer request) (v' : Deployed)
    (inv : (netPolls S config printable p initial).inv v)
    (answered : (netPolls S config printable p initial).answers (.inr request) v answer v') :
    SiteServes config printable request v.site answer v'.site ∧ (netPolls S config printable p initial).inv v' ∧
      (netPolls S config printable p initial).guar v v' := by
  obtain ⟨others, site⟩ := v
  obtain ⟨others', site'⟩ := v'
  obtain ⟨⟨app, served, same⟩, rfl⟩ := answered
  obtain rfl : site' = { site with app := app } := same
  obtain ⟨holds, keeping⟩ := inv
  exact ⟨⟨app, served, rfl⟩, ⟨holds, keeping.shown, keeping.inRange, keeping.past⟩, Moves.refl _ _,
    .single (shared_site _ _ _ _ ⟨app, served, rfl⟩)⟩

/-- **The rows of a query are those of its window**, for what is still to come as well: the deals of one moment of
the query, from when on no row of the window appears. -/
theorem source_keeps (late : 0 ≤ p.lag) {apiVersion clientId clientSecret : String} {fuel : Nat} (some_ : 0 < fuel)
    (cached : Option AccessToken) {from_ upper now : Int} (from__ : Dated from_) (upper_ : Dated upper)
    (holds : (netPolls S config printable p initial).inv v) (known : now ∈ v.others.serverTimes)
    (ends : upper = truncateSecond (now - p.lag)) :
    Keeps (netPolls S config printable p initial)
      (fun result v' => ∀ rows, result = some (.ok rows) → ∃ deals, Window p.lag (truncateSecond from_) upper deals v'.view ∧
        List.Forall₂ (fun d o => Salesforce.Opportunity.unmarshal d.row.json = .ok o) deals rows)
      (restSource (Salesforce.client apiVersion clientId clientSecret) fuel cached (query from_ upper)) v := by
  have readable := Readable.wonBetween from__ upper_
  have shown := holds.2.shown
  have past := holds.2.past
  have read : Keeps (netPolls S config printable p initial)
      (fun result v' => Snapshot config printable bumped apiVersion (query from_ upper).text
        (fun o => (Salesforce.Opportunity.unmarshal o).toOption) fuel v.site v'.site result.1)
      ((Salesforce.client apiVersion clientId clientSecret).queryAll fuel cached (query from_ upper).text).inr v := by
    refine Keeps.ofRight (D := netPolls S config printable p initial) Deployed.site
      (fun (result : Option (Except ClientError (List (Salesforce.Opportunity Json.Token))) × Option AccessToken) site' =>
        Snapshot config printable bumped apiVersion (query from_ upper).text
          (fun o => (Salesforce.Opportunity.unmarshal o).toOption) fuel v.site site' result.1)
      (fun _ _ moved => moved.2) net_serves fun calls value there run => ?_
    exact queryAll_snapshot (Salesforce.reads_client apiVersion clientId clientSecret) some_ run
  rw [restSource, Keeps.bind_iff]
  refine Keeps.mono (fun result v' inv' both rows ok => ?_) holds (Keeps.moved (fun _ _ guar => guar) read)
  obtain ⟨snapshot, moved, -⟩ := both
  obtain ⟨value, token⟩ := result
  cases snapshot with
  | failed err => cases ok
  | unfinished => cases ok
  | @read moment documents recs before after answered decoded =>
      cases ok
      -- the deals of that moment, and nothing late after it
      obtain ⟨records, selects, alike, -⟩ := answer_selects (shown_bumped shown before) readable answered
      obtain ⟨deals, window, rfl⟩ := window_of_selects (w := Deployed.view ⟨v.others, moment⟩) selects known ends
      refine ⟨deals, window.moves ?_, forall₂_unmarshalAll (unmarshalAll_of_alike alike decoded)⟩
      have since : ∀ t ∈ v.others.serverTimes, t ≤ 1000 * clockOf moment.now := by
        intro t mem
        have older := (rows_of_moves shown before).1
        have := past t mem
        unfold clockOf at this ⊢
        omega
      have rows := moves_of_site late (shown_bumped shown before) since after
      exact ⟨moved.sends, moved.clock, rows.rows⟩

theorem runWith_keeps (late : 0 ≤ p.lag) {apiVersion clientId clientSecret : String} {fuel : Nat} (some_ : 0 < fuel)
    (cached : Option AccessToken) (holds : (netPolls S config printable p initial).inv v) :
    Keeps (netPolls S config printable p initial) (fun _ _ => True)
      (p.runWith (restSource (Salesforce.client apiVersion clientId clientSecret) fuel cached)) v := by
  have got := Keeps.both (C := polls S p initial) (D := dawned S p) rfl get_keeps (get_dawned v.view)
  refine net_sequence holds (lift_keeps got) fun result v₁ inv₁ _ got => ?_
  cases result with
  | error err => trivial
  | ok from_ =>
      have safe := got.1 from_ rfl
      have dawn := got.2 from_ rfl
      refine net_sequence inv₁ (lift_keeps (serverTime_keeps v₁.view)) fun reply v₂ inv₂ moved₂ read => ?_
      cases reply with
      | error err => trivial
      | ok now =>
          have known : now ∈ v₂.others.serverTimes := read now rfl
          have safe₂ := safe.moves moved₂.1
          dsimp only
          split
          · trivial
          · rename_i open_
            -- the end of the window is not after the clock
            have inRange := inv₂.2.inRange
            have past := inv₂.2.past now known
            have upper_ : Dated (truncateSecond (now - p.lag)) := by
              refine dated_of_between (by omega) (le_trans ?_ (b := 1000 * clockOf v₂.site.now) ?_) inRange
              · rw [truncateSecond, nanosPerSecond]
                omega
              · unfold clockOf
                omega
            have from__ : Dated from_ := by
              refine dated_of_between dawn (le_trans ?_ (b := 1000 * clockOf v₂.site.now) ?_) inRange
              · rw [truncateSecond, nanosPerSecond] at open_
                omega
              · unfold clockOf
                omega
            refine net_sequence inv₂ (source_keeps late some_ cached from__ upper_ inv₂ known rfl)
              fun result v₃ inv₃ moved₃ answered => ?_
            rcases result with _ | (err | rows)
            · trivial
            · trivial
            · obtain ⟨deals, window, decoded⟩ := answered rows rfl
              have start : truncateSecond from_ ≤ from_ := by
                rw [truncateSecond, nanosPerSecond]
                omega
              have published := publishRows_keeps inv₃.1.1 (safe₂.moves moved₃.1) window start decoded
              have stored := publishRows_dawned (S := S) (p := p) dawn (not_le.mp open_) rows v₃.view
              have both := Keeps.both (C := polls S p initial) (D := dawned S p) rfl published stored
              exact net_sequence inv₃ (lift_keeps both) fun _ _ _ _ _ => trivial

end Programs

/-! ### Every interleaving -/

section Pools

variable {S : Services} {config : Config} {printable : Char → Bool} {p : Poller} {initial : Int}

/-- What happens around the runs keeps what they rely on. -/
theorem surroundings_keep (late : 0 ≤ p.lag) {v v' : Deployed} (inv : (netPolls S config printable p initial).inv v)
    (around : Surroundings config printable p v v') :
    (netPolls S config printable p initial).inv v' ∧ (netPolls S config printable p initial).rely v v' := by
  obtain ⟨⟨safe, dawn⟩, keeping⟩ := inv
  cases around with
  | @others w sends times same =>
      have moved : Moves p.lag v.view (Deployed.view { v with others := w }) :=
        ⟨sends, times ▸ List.Subset.refl _, fun _ mem => .inl mem⟩
      have unwritten : (Deployed.view { v with others := w }).parameters p.watermark.name =
          v.view.parameters p.watermark.name := same
      refine ⟨⟨⟨inv_moves safe moved unwritten, fun t stored => dawn t ?_⟩, ⟨keeping.shown, keeping.inRange, ?_⟩⟩,
        moved, .refl⟩
      · rw [← stored, SSMWatermark.stored, SSMWatermark.stored, unwritten]
      · exact times ▸ keeping.past
  | @site site' move inRange =>
      have moves : ReflTransGen (SiteMoves config printable bumped) v.site site' := .single move
      have moved : Moves p.lag v.view (Deployed.view { v with site := site' }) :=
        moves_of_site late keeping.shown keeping.past moves
      refine ⟨⟨⟨inv_moves safe moved rfl, dawn⟩, ⟨shown_bumped keeping.shown moves, inRange, fun t known => ?_⟩⟩,
        moved, moves⟩
      have older := (rows_of_moves keeping.shown moves).1
      have before := keeping.past t known
      show t ≤ 1000 * clockOf site'.now
      unfold clockOf at before ⊢
      omega

/-- **The poller over the network never skips a deal.** Any number of its runs are interleaved request
by request with writes, resets, faults, revoked tokens and other clients of the server: in every state
reached, every deal that is won now and stamped between the watermark of the start and the stored one
is published at this stamp. -/
theorem no_deal_skipped_over_network {apiVersion clientId clientSecret : String} (late : 0 ≤ p.lag) {v : Deployed}
    (start : p.watermark.stored v.view = some initial) (dawn : zeroTime ≤ initial) (shown : v.site.data.store.Shown)
    (inRange : InRange v.site.now) (unread : v.others.serverTimes = [])
    {s : Pool Deployed Unit (Sum.elim Request.Answer Rest.Call.Answer) (Option (Result × Option RunError))}
    (reached : Pool.Reaches (Replies S config printable) (Surroundings config printable p)
      (NetRuns p apiVersion clientId clientSecret) (Pool.idle v) s) {t : Int}
    (stored : p.watermark.stored s.world.view = some t) {opp : OpportunityRecord}
    (here : opp ∈ s.world.site.data.store.records) (won : opp.stageName = some wonStage)
    (low : initial ≤ (s.world.site.data.store.dealOf opp).stamp) (high : (s.world.site.data.store.dealOf opp).stamp < t) :
    Published s.world.others (s.world.site.data.store.dealOf opp) := by
  have inv : (netPolls S config printable p initial).inv v := by
    refine ⟨⟨fun t' stored' => ?_, fun t' stored' => ?_⟩, shown, inRange, fun t' known => ?_⟩
    · cases start.symm.trans stored'
      exact safe_initial p.lag initial v.view
    · cases start.symm.trans stored'
      exact dawn
    · rw [unread] at known
      cases known
  have sound : Pool.Sound (netPolls S config printable p initial) (fun _ _ _ => True) s := by
    refine (Pool.sound_idle inv).reaches (fun _ _ _ _ _ _ _ => trivial)
      (fun v v' inv around => surroundings_keep late inv around) (fun _ _ guar => guar)
      (fun _ program v starts inv => ?_) reached
    cases starts with
    | run fuel cached some_ => exact runWith_keeps late some_ cached inv
  exact (sound.inv.1.1 t stored).covered _ (List.mem_map_of_mem here) (decide_eq_true won) low high

end Pools

/-! ### A run over one deal -/

/-- The server a second after the deal was won. -/
def renewalDeployed : Deployed := ⟨World.empty, renewalSite 1000000⟩

/-- A run that publishes the deal and stores the end of its window. -/
theorem renewal_exec (S : Services) (env : Deployed → Deployed → Prop) :
    ∃ result v', Exec (Replies S renewalConfig fun _ => true) env
        (earlyPoller.runWith (restSource (Salesforce.client "v66.0" "id" "secret") 1 (some ⟨"t", "http://org"⟩)))
        renewalDeployed result v' ∧
      earlyPoller.watermark.stored v'.view = some 1000000000 ∧ v'.site.data = (renewalSite 1000000).data := by
  have dated : ∀ {t : Int}, zeroTime ≤ t → t ≤ 1000 * 1000000 → Dated t := fun dawn le =>
    dated_of_between dawn le (by decide)
  have readable : Readable (query 0 1000000000) (windowQuery (floorSecond 0) (floorSecond 1000000000)) :=
    .wonBetween (dated (by decide) (by decide)) (dated (by decide) (by decide))
  have satisfied : (renewalSite 1000000).data.store.Satisfies (windowQuery (floorSecond 0) (floorSecond 1000000000)).conditions
      renewalRecord := (satisfies_windowQuery _ _ _ _).mpr (by with_unfolding_all decide)
  obtain ⟨calls, o, cached, app, decoded, run⟩ := renewal_run readable rfl 1000000 satisfied (fun _ => true) Alone
  obtain ⟨ev, built⟩ : ∃ ev, Events.fromOpportunity o 0 = some ev := by
    have read := decoded
    rw [unmarshal_row] at read
    cases read
    have parsed : parseDateTime ((renewalSite 1000000).data.store.dealOf renewalRecord).row.systemModstamp = some 0 := by
      rw [Deal.row, parseDateTime_wireText]
      with_unfolding_all decide
    rw [Events.fromOpportunity, parsed]
    exact ⟨_, rfl⟩
  obtain ⟨m, carried⟩ : ∃ m : Sqs.Message, m = ⟨"m-1", Events.marshal ev, [("event_key", ev.eventKey)], 0⟩ := ⟨_, rfl⟩
  -- the other services, step by step
  obtain ⟨w₁, read⟩ : ∃ w₁ : World, w₁ = { World.empty with serverTimes := [1000000000] } := ⟨_, rfl⟩
  obtain ⟨w₂, pushed⟩ : ∃ w₂ : World, w₂ = { w₁ with sqs := w₁.sqs.push .main m } := ⟨_, rfl⟩
  obtain ⟨parameters, updated⟩ : ∃ parameters, parameters =
    Function.update w₂.parameters "/relay/ingest/watermark" (some (literal 1000000000)) := ⟨_, rfl⟩
  obtain ⟨w₃, stored⟩ : ∃ w₃ : World, w₃ = { w₂ with parameters := parameters } := ⟨_, rfl⟩
  obtain ⟨site, served_⟩ : ∃ site : Site, site = { renewalSite 1000000 with app := app } := ⟨_, rfl⟩
  have got : Exec (Replies S renewalConfig fun _ => true) env earlyPoller.watermark.get.inl renewalDeployed (.ok 0)
      renewalDeployed := by
    have answered : Replies S renewalConfig (fun _ => true) (.inl (.getParameter earlyPoller.watermark.name))
        renewalDeployed (Except.error .notFound) renewalDeployed := ⟨⟨rfl, rfl⟩, rfl, fun t mem => .inl mem⟩
    exact .call .refl answered .ret
  have served : Replies S renewalConfig (fun _ => true) (.inl .serverTime) renewalDeployed (Except.ok (1000000000 : Int))
      ⟨w₁, renewalSite 1000000⟩ := by
    rw [read]
    exact ⟨rfl, rfl, fun t mem => .inr (List.mem_singleton.mp mem)⟩
  have rows : Exec (Replies S renewalConfig fun _ => true) env
      (restSource (Salesforce.client "v66.0" "id" "secret") 1 (some ⟨"t", "http://org"⟩) (query 0 1000000000))
      ⟨w₁, renewalSite 1000000⟩ (some (.ok [o])) ⟨w₁, site⟩ := by
    rw [served_]
    refine (Exec.ofRight (fun site => (⟨w₁, site⟩ : Deployed)) ?_ run.exec).bind .ret
    exact fun request site reply site' answered => ⟨answered, rfl⟩
  have events : Exec (Replies S renewalConfig fun _ => true) env (buildEvents [o]).inl ⟨w₁, site⟩ (.ok [ev]) ⟨w₁, site⟩ := by
    have answered : Replies S renewalConfig (fun _ => true) (.inl .timeNow) ⟨w₁, site⟩ (0 : Int) ⟨w₁, site⟩ :=
      ⟨rfl, rfl, fun t mem => .inl mem⟩
    refine .call .refl answered ?_
    simp only [Prog.bind, built]
    exact .ret
  have sent : Exec (Replies S renewalConfig fun _ => true) env (publish [ev]).inl ⟨w₁, site⟩ (1, none) ⟨w₂, site⟩ := by
    have answered : Replies S renewalConfig (fun _ => true) (.inl (.sendMessageBatch .main [entry 0 ev])) ⟨w₁, site⟩
        (Except.ok ⟨["0"], []⟩) ⟨w₂, site⟩ := by
      refine ⟨⟨w₁.sqs.push .main m, ⟨[entry 0 ev], List.Sublist.refl _, ?_, ?_⟩, by rw [pushed]; rfl⟩, rfl, ?_⟩
      · refine .cons ⟨m, by rw [carried]; rfl, by rw [carried]; rfl, ?_, rfl⟩ .nil
        rintro ⟨e, mem, -⟩
        rw [read] at mem
        cases mem
      · rintro out ⟨⟩
        exact ⟨rfl, rfl⟩
      · rw [pushed]
        exact fun t mem => .inl mem
    exact .call .refl answered .ret
  have put : Exec (Replies S renewalConfig fun _ => true) env (earlyPoller.watermark.set 1000000000).inl ⟨w₂, site⟩
      (.ok ()) ⟨w₃, site⟩ := by
    have answered : Replies S renewalConfig (fun _ => true)
        (.inl (.putParameter "/relay/ingest/watermark" (literal 1000000000))) ⟨w₂, site⟩ (Except.ok ()) ⟨w₃, site⟩ := by
      have same : Deployed.view ⟨w₃, site⟩ = { Deployed.view ⟨w₂, site⟩ with parameters := parameters } := by
        rw [stored]
        rfl
      rw [updated] at same
      refine ⟨⟨.inr same, fun _ => same⟩, rfl, ?_⟩
      rw [stored]
      exact fun t mem => .inl mem
    exact .call .refl answered .ret
  have published : Exec (Replies S renewalConfig fun _ => true) env (earlyPoller.publishRows 0 1000000000 [o]).inl
      ⟨w₁, site⟩ (⟨0, 1000000000, 1, 1, [ev.eventKey]⟩, none) ⟨w₃, site⟩ := by
    rw [Poller.publishRows, Prog.inl_bind]
    refine events.bind ?_
    dsimp only
    rw [Prog.inl_bind]
    refine sent.bind ?_
    rw [if_pos ⟨by decide, by simp⟩, Poller.finish]
    dsimp only
    rw [Prog.inl_bind]
    exact put.bind .ret
  refine ⟨some (⟨0, 1000000000, 1, 1, [ev.eventKey]⟩, none), ⟨w₃, site⟩, ?_, ?_, ?_⟩
  · exact got.bind (.call .refl served (rows.bind (published.bind .ret)))
  · have high : parseDateTime (literal 1000000000) = some 1000000000 := by
      rw [parseDateTime_literal]
      decide
    rw [SSMWatermark.stored, stored, updated]
    simpa [earlyPoller, Deployed.view] using high
  · rw [served_]

/-- A run over the network publishes the deal. -/
theorem no_deal_skipped_over_network_renewal : ∃ v' : Deployed,
    renewalRecord ∈ v'.site.data.store.records ∧ Published v'.others (v'.site.data.store.dealOf renewalRecord) := by
  obtain ⟨result, v', run, stored, data⟩ :=
    renewal_exec ⟨fun _ => 0⟩ (Surroundings renewalConfig (fun _ => true) earlyPoller)
  have start : NetRuns earlyPoller "v66.0" "id" "secret" ()
      (earlyPoller.runWith (restSource (Salesforce.client "v66.0" "id" "secret") 1 (some ⟨"t", "http://org"⟩))) :=
    .run 1 (some ⟨"t", "http://org"⟩) Nat.one_pos
  have reached := Pool.reaches_exec start run [] []
  have here : renewalRecord ∈ v'.site.data.store.records := by
    rw [data, renewal_records]
    exact List.mem_singleton_self _
  have stamp : (v'.site.data.store.dealOf renewalRecord).stamp = 0 := by
    rw [data]
    with_unfolding_all rfl
  refine ⟨v', here, ?_⟩
  exact no_deal_skipped_over_network (p := earlyPoller) (le_refl 0) (v := renewalDeployed) rfl
    (by decide) (renewal_shown _) (by decide) rfl reached stored here rfl (ge_of_eq stamp) (stamp.trans_lt (by decide))

end Relay.Ingest
