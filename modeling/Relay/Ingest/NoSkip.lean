import Relay.Ingest.Served

/-!
The poller never skips a deal.

Any number of runs are interleaved call by call and stop at any point, while
Salesforce changes. What is stored as the watermark is `Safe`: the deals won below
it are published, and no row may appear there any more. `Safe` is stable, so it is
also true of a watermark that a run has read, however long ago; and a run stores
only safe ones, the end of its window (`Safe.advance`) or the stamp of the first
event that it did not send (`Safe.resume`).
-/

namespace Relay.Ingest

open Relay.Json Relay.Effect Relay.Platform Relay.Salesforce Relay.Events Relay.Sqs
  Relay.Data

/-- The main queue accepted this event. -/
def Sent (w : World) (ev : Event) : Prop := ∃ m, (Queue.main, m) ∈ w.sqs.accepted ∧ Carries ev m

/-- The main queue accepted an event of the deal. -/
def Published (w : World) (d : Deal) : Prop := ∃ ev, IsEventOf d ev ∧ Sent w ev

/-- Sends and readings of the clock were only added, and rows that have appeared
are not older than the lag allows. -/
structure Moves (lag : Int) (w w' : World) : Prop where
  sends : w.sqs.accepted ⊆ w'.sqs.accepted
  clock : w.serverTimes ⊆ w'.serverTimes
  rows : ∀ d ∈ w'.org, d ∈ w.org ∨ ∀ t ∈ w.serverTimes, t - lag ≤ d.stamp

theorem Moves.refl (lag : Int) (w : World) : Moves lag w w :=
  ⟨List.Subset.refl _, List.Subset.refl _, fun _ mem => .inl mem⟩

theorem Moves.trans {lag : Int} {u v w : World} (first : Moves lag u v) (second : Moves lag v w) :
    Moves lag u w where
  sends := List.Subset.trans first.sends second.sends
  clock := List.Subset.trans first.clock second.clock
  rows := by
    intro d mem
    rcases second.rows d mem with mem | late
    · exact first.rows d mem
    · exact .inr fun t known => late t (first.clock known)

theorem Sent.moves {lag : Int} {w w' : World} {ev : Event} (sent : Sent w ev) (moved : Moves lag w w') :
    Sent w' ev := by
  obtain ⟨m, mem, carries⟩ := sent
  exact ⟨m, moved.sends mem, carries⟩

theorem Published.moves {lag : Int} {w w' : World} {d : Deal} (published : Published w d)
    (moved : Moves lag w w') : Published w' d := by
  obtain ⟨ev, event, sent⟩ := published
  exact ⟨ev, event, sent.moves moved⟩

/-! ### Safe watermarks -/

/-- No row may appear below `t` any more. -/
def Closed (lag t : Int) (w : World) : Prop := ∃ now ∈ w.serverTimes, t ≤ now - lag

theorem Closed.moves {lag t : Int} {w w' : World} (closed : Closed lag t w) (moved : Moves lag w w') :
    Closed lag t w' := by
  obtain ⟨now, known, le⟩ := closed
  exact ⟨now, moved.clock known, le⟩

/-- A row below a closed time was there before. -/
theorem Closed.mem {lag t : Int} {w w' : World} (closed : Closed lag t w) (moved : Moves lag w w')
    {d : Deal} (mem : d ∈ w'.org) (below : d.stamp < t) : d ∈ w.org := by
  obtain ⟨now, known, le⟩ := closed
  rcases moved.rows d mem with mem | late
  · exact mem
  · have := late now known
    omega

/-- Every deal won from `initial` up to `t` is published. -/
structure Safe (lag initial t : Int) (w : World) : Prop where
  covered : ∀ d ∈ w.org, d.isWon = true → initial ≤ d.stamp → d.stamp < t → Published w d
  closed : t ≤ initial ∨ Closed lag t w

theorem Safe.moves {lag initial t : Int} {w w' : World} (safe : Safe lag initial t w)
    (moved : Moves lag w w') : Safe lag initial t w' where
  covered := by
    intro d mem won low high
    rcases safe.closed with start | closed
    · omega
    · exact (safe.covered d (closed.mem moved mem high) won low high).moves moved
  closed := safe.closed.imp_right fun closed => closed.moves moved

theorem Safe.mono {lag initial t t' : Int} {w : World} (safe : Safe lag initial t w) (le : t' ≤ t) :
    Safe lag initial t' w where
  covered := fun d mem won low high => safe.covered d mem won low (by omega)
  closed := by
    rcases safe.closed with start | ⟨now, known, le'⟩
    · exact .inl (by omega)
    · exact .inr ⟨now, known, by omega⟩

theorem safe_initial (lag initial : Int) (w : World) : Safe lag initial initial w where
  covered := fun d _ _ low high => by omega
  closed := .inl (le_refl _)

/-- The deals of a window: those won in it, now and from now on. -/
structure Window (lag low upper : Int) (deals : List Deal) (w : World) : Prop where
  closed : Closed lag upper w
  complete : ∀ d ∈ w.org, d.isWon = true → low ≤ d.stamp → d.stamp < upper → d ∈ deals
  below : ∀ d ∈ deals, d.stamp < upper
  sorted : deals.Pairwise fun a b => a.stamp ≤ b.stamp

theorem Window.moves {lag low upper : Int} {deals : List Deal} {w w' : World}
    (window : Window lag low upper deals w) (moved : Moves lag w w') :
    Window lag low upper deals w' where
  closed := window.closed.moves moved
  complete := fun d mem won ge lt => window.complete d (window.closed.mem moved mem lt) won ge lt
  below := window.below
  sorted := window.sorted

/-- The end of a window whose deals are published is safe, if its start was. -/
theorem Safe.advance {lag initial from_ low upper : Int} {deals : List Deal} {w : World}
    (safe : Safe lag initial from_ w) (window : Window lag low upper deals w) (start : low ≤ from_)
    (sent : ∀ d ∈ deals, Published w d) : Safe lag initial upper w where
  covered := by
    intro d mem won ge lt
    by_cases before : d.stamp < from_
    · exact safe.covered d mem won ge before
    · exact sent d (window.complete d mem won (by omega) lt)
  closed := .inr window.closed

/-- The deals before the `k`th of a window are those with smaller stamps, and perhaps more. -/
theorem Window.mem_take {lag low upper : Int} {deals : List Deal} {w : World}
    (window : Window lag low upper deals w) {k : Nat} {next d : Deal} (here : deals[k]? = some next)
    (mem : d ∈ deals) (lt : d.stamp < next.stamp) : d ∈ deals.take k := by
  have split := List.take_append_drop k deals
  rw [← split] at mem
  rcases List.mem_append.mp mem with before | after
  · exact before
  · have sorted := window.sorted
    rw [← split, List.pairwise_append] at sorted
    obtain ⟨inside, head⟩ := List.getElem?_eq_some_iff.mp here
    rw [List.drop_eq_getElem_cons inside, head] at after sorted
    rcases List.mem_cons.mp after with rfl | after
    · omega
    · have := (List.pairwise_cons.mp sorted.2.1).1 d after
      omega

/-- The stamp of the first deal that was not sent is safe. -/
theorem Safe.resume {lag initial from_ low upper : Int} {deals : List Deal} {w : World}
    (safe : Safe lag initial from_ w) (window : Window lag low upper deals w) (start : low ≤ from_)
    {k : Nat} {next : Deal} (here : deals[k]? = some next)
    (sent : ∀ d ∈ deals.take k, Published w d) : Safe lag initial next.stamp w where
  covered := by
    intro d mem won ge lt
    by_cases before : d.stamp < from_
    · exact safe.covered d mem won ge before
    · have inside := window.below next (List.mem_of_getElem? here)
      exact sent d (window.mem_take here (window.complete d mem won (by omega) (by omega)) lt)
  closed := by
    obtain ⟨now, known, le⟩ := window.closed
    have inside := window.below next (List.mem_of_getElem? here)
    exact .inr ⟨now, known, by omega⟩

/-! ### One run -/

/-- A system of polls. -/
def polls (S : Services) (p : Poller) (initial : Int) : Contract World Request.Answer where
  answers := S.Answers
  inv w := ∀ t, p.watermark.stored w = some t → Safe p.lag initial t w
  rely := Moves p.lag
  guar := Moves p.lag
  rely_refl := Moves.refl p.lag
  rely_trans := Moves.trans

section Programs

variable {S : Services} {p : Poller} {initial : Int} {α β : Type} {w : World}

/-- Everything but the watermark may have moved. -/
theorem inv_moves {w w' : World} (inv : (polls S p initial).inv w) (moved : Moves p.lag w w')
    (same : w'.parameters p.watermark.name = w.parameters p.watermark.name) :
    (polls S p initial).inv w' := by
  intro t stored
  refine (inv t ?_).moves moved
  rw [← stored, SSMWatermark.stored, SSMWatermark.stored, same]

theorem polls_sequence {first : β → World → Prop} {post : α → World → Prop} {program : Act β}
    {next : β → Act α} (holds : (polls S p initial).inv w)
    (start : Keeps (polls S p initial) first program w)
    (rest : ∀ value w₁, (polls S p initial).inv w₁ → Moves p.lag w w₁ → first value w₁ →
      Keeps (polls S p initial) post (next value) w₁) :
    Keeps (polls S p initial) post (program >>= next) w :=
  Keeps.sequence (C := polls S p initial) (fun _ _ guar => guar) holds start rest

theorem get_keeps : Keeps (polls S p initial)
    (fun result w => ∀ t, result = .ok t → Safe p.lag initial t w) p.watermark.get w := by
  refine Keeps.observe (C := polls S p initial) (fun _ _ _ answered => answered.1) (Moves.refl p.lag)
    fun w₁ _ inv₁ answer answered => ?_
  have stored := answered.2
  rcases answer with (_ | err) | value
  · intro t ok
    cases ok
    exact inv₁ _ (by rw [SSMWatermark.stored, stored])
  · intro t ok
    cases ok
  · intro t ok
    refine inv₁ t ?_
    unfold readDateTime at ok
    split at ok
    · rename_i t' parsed
      cases ok
      rw [SSMWatermark.stored, stored]
      exact parsed
    · cases ok

/-- A safe watermark may be stored: what is read back is not later. -/
theorem set_keeps {t : Int} (safe : Safe p.lag initial t w) :
    Keeps (polls S p initial) (fun _ _ => True) (p.watermark.set t) w := by
  intro w₁ moved inv₁ answer w₂ answered
  have safe₁ := safe.moves moved
  rcases answered.1 with rfl | rfl
  · exact ⟨inv₁, Moves.refl _ _, trivial⟩
  · refine ⟨fun t' stored => ?_, ⟨List.Subset.refl _, List.Subset.refl _, fun _ mem => .inl mem⟩, trivial⟩
    have here : parseDateTime (literal t) = some t' := by
      simpa [SSMWatermark.stored] using stored
    rw [parseDateTime_literal] at here
    split at here
    · cases here
      refine ⟨(safe₁.mono ?_).covered, (safe₁.mono ?_).closed⟩
      all_goals
        rw [truncateSecond, nanosPerSecond]
        omega
    · cases here

theorem queryAll_keeps {soql : Soql} : Keeps (polls S p initial)
    (fun result w => ∀ rows, result = .ok rows →
      ∃ records, soql.Selects w.org records ∧ unmarshalAll records = .ok rows) (queryAll soql) w := by
  refine Keeps.perform_bind fun w₁ _ inv₁ reply w₂ answered => ?_
  cases reply with
  | error err =>
      obtain rfl : w₂ = w₁ := answered
      refine ⟨inv₁, Moves.refl _ _, fun rows ok => ?_⟩
      cases ok
  | ok records =>
      obtain ⟨selects, rfl⟩ := answered
      have moved : Moves p.lag w₁ { w₁ with reads := w₁.reads ++ [(soql, w₁.org)] } :=
        ⟨List.Subset.refl _, List.Subset.refl _, fun _ mem => .inl mem⟩
      exact ⟨inv_moves inv₁ moved rfl, moved, fun rows ok => ⟨records, selects, ok⟩⟩

theorem buildEvents_keeps (rows : List (Salesforce.Opportunity Token)) (w : World) :
    Keeps (polls S p initial) (fun built _ => BuiltFrom rows built) (buildEvents rows) w := by
  apply (calls_buildEvents rfl rows).keeps_returns
    (fun _ _ guar => guar) (returns_buildEvents rows)
  rintro w₁ _ now w₂ _ inv₁ rfl answered
  obtain rfl : w₂ = w₁ := answered
  exact ⟨inv₁, Moves.refl p.lag w₂⟩

/-- What the publisher says of its events: the first `sent` were sent. -/
def Confirmed (evs : List Event) (result : Int × Option PublishError) (w : World) : Prop :=
  (∀ ev ∈ evs.take result.1.toNat, Sent w ev) ∧
    (result.2 = none → result.1 = evs.length)

theorem take_append_toNat {α : Type} (before rest : List α) (idx : Int) :
    ∀ x ∈ (before ++ rest).take (before.length + idx).toNat, x ∈ before ∨ x ∈ rest.take idx.toNat := by
  intro x mem
  rw [List.take_append] at mem
  have same : (before.length + idx).toNat - before.length = idx.toNat := by omega
  rw [same] at mem
  rcases List.mem_append.mp mem with mem | mem
  · exact .inl (List.mem_of_mem_take mem)
  · exact .inr mem

theorem publishFrom_keeps {evs : List Event} (rest before : List Event) (start : Nat) (w : World)
    (split : evs = before ++ rest) (at_ : rest ≠ [] → before.length = start) (inv : (polls S p initial).inv w)
    (sent : ∀ ev ∈ before, Sent w ev) :
    Keeps (polls S p initial) (Confirmed evs) (publishFrom evs.length start (batches 10 rest)) w := by
  induction rest using batches_induction 10 (by omega) generalizing before start w with
  | nil =>
      refine ⟨?_, fun _ => rfl⟩
      rw [split, List.append_nil]
      exact fun ev mem => sent ev (List.mem_of_mem_take mem)
  | batch rest some_ ih =>
      have at_ := at_ some_
      rw [batches_of_ne_nil (by omega) some_]
      -- Whatever fails, the events before this batch were sent.
      have stopped : ∀ (w' : World) (err : PublishError), Moves p.lag w w' →
          Confirmed evs (start, some err) w' := by
        intro w' err moved
        refine ⟨fun ev mem => ?_, fun done => by cases done⟩
        rw [split, Int.toNat_natCast, List.take_left' at_] at mem
        exact (sent ev mem).moves moved
      refine Keeps.perform_bind fun w₁ moved₁ inv₁ reply w₂ answered => ?_
      obtain ⟨sqs, answered, rfl⟩ := answered
      obtain ⟨ms, accepted, -⟩ := sent_only answered
      have moved₂ : Moves p.lag w₁ { w₁ with sqs := sqs } :=
        ⟨fun e mem => by rw [accepted]; exact List.mem_append_left _ mem, List.Subset.refl _,
          fun _ mem => .inl mem⟩
      have inv₂ := inv_moves inv₁ moved₂ rfl
      refine ⟨inv₂, moved₂, ?_⟩
      have moved := moved₁.trans moved₂
      cases reply with
      | error err => exact stopped _ _ moved
      | ok out =>
          dsimp only
          split
          · rename_i none
            have all := sent_all answered none
            obtain ⟨ms, accepted, carries⟩ := all
            have sentChunk : ∀ ev ∈ rest.take 10, Sent { w₁ with sqs := sqs } ev := by
              intro ev mem
              obtain ⟨m, memM, carries⟩ := exists_of_forall₂ carries mem
              refine ⟨m, ?_, carries⟩
              show (Queue.main, m) ∈ sqs.accepted
              rw [accepted]
              exact List.mem_append_right _ (List.mem_map_of_mem memM)
            refine ih (before ++ rest.take 10) (start + 10) _ ?_ ?_ inv₂ ?_
            · rw [List.append_assoc, List.take_append_drop]
              exact split
            · intro more
              have long : 10 < rest.length := by
                by_contra small
                exact more (List.drop_eq_nil_of_le (by omega))
              rw [List.length_append, List.length_take, at_]
              omega
            · intro ev mem
              rcases List.mem_append.mp mem with mem | mem
              · exact (sent ev mem).moves moved
              · exact sentChunk ev mem
          · rename_i first others failed
            split
            · exact stopped _ _ moved
            · rename_i idx f found
              have short : (rest.take 10).length ≤ 10 := by
                rw [List.length_take]
                exact Nat.min_le_left _ _
              rw [← failed] at found
              have sentChunk := sent_before short answered found
              refine ⟨fun ev mem => ?_, fun done => by cases done⟩
              rw [split, ← at_] at mem
              have same : (rest.take 10).take idx.toNat = rest.take idx.toNat := by
                have le := (firstFailed_le found).1
                rw [List.take_take, Nat.min_eq_left (by omega)]
              rw [same] at sentChunk
              rcases take_append_toNat before rest idx ev mem with mem | mem
              · exact (sent ev mem).moves moved
              · exact sentChunk ev mem

theorem publish_keeps (evs : List Event) (inv : (polls S p initial).inv w) :
    Keeps (polls S p initial) (Confirmed evs) (publish evs) w :=
  publishFrom_keeps evs [] 0 w rfl (fun _ => rfl) inv (by simp)

/-- A run that published its window stores a safe watermark, or none. -/
theorem finish_keeps {from_ low upper : Int} {deals : List Deal} {evs : List Event} {sent : Nat}
    {pubErr : Option PublishError} (inv : (polls S p initial).inv w)
    (safe : Safe p.lag initial from_ w) (window : Window p.lag low upper deals w) (start : low ≤ from_)
    (events : List.Forall₂ IsEventOf deals evs) (confirmed : ∀ ev ∈ evs.take sent, Sent w ev)
    (all : pubErr = none → sent = evs.length) :
    Keeps (polls S p initial) (fun _ _ => True) (p.finish from_ upper evs sent pubErr) w := by
  have published : ∀ d ∈ deals.take sent, Published w d := by
    intro d mem
    obtain ⟨ev, memEv, event⟩ := exists_of_forall₂ (List.forall₂_take sent events) mem
    exact ⟨ev, event, confirmed ev memEv⟩
  unfold Poller.finish
  cases pubErr with
  | some err =>
      dsimp only
      split
      · rename_i t resumes
        have safe_ : Safe p.lag initial t w := by
          unfold resumeAt at resumes
          split at resumes
          · rename_i ev here
            split at resumes
            · cases resumes
              obtain ⟨d, hereD, event⟩ := getElem?_of_forall₂ events here
              rw [event.modstamp]
              exact safe.resume window start hereD published
            · cases resumes
          · cases resumes
        refine polls_sequence inv (set_keeps safe_) fun result _ _ _ _ => ?_
        cases result <;> trivial
      · trivial
  | none =>
      have whole : deals.take sent = deals := by
        rw [all rfl, ← events.length_eq]
        exact List.take_length
      rw [whole] at published
      refine polls_sequence inv (set_keeps (safe.advance window start published)) fun result _ _ _ _ => ?_
      cases result <;> trivial

theorem publishRows_keeps {from_ low upper : Int} {deals : List Deal}
    {rows : List (Salesforce.Opportunity Token)} (inv : (polls S p initial).inv w)
    (safe : Safe p.lag initial from_ w) (window : Window p.lag low upper deals w) (start : low ≤ from_)
    (decoded : List.Forall₂ (fun d o => Salesforce.Opportunity.unmarshal d.row.json = .ok o) deals rows) :
    Keeps (polls S p initial) (fun _ _ => True) (p.publishRows from_ upper rows) w := by
  refine polls_sequence inv (buildEvents_keeps rows w) fun result w₁ inv₁ moved₁ built => ?_
  cases result with
  | error err => trivial
  | ok evs =>
      have events := forall₂_isEventOf decoded built
      refine polls_sequence inv₁ (publish_keeps evs inv₁) fun result w₂ inv₂ moved₂ confirmed => ?_
      obtain ⟨sent, pubErr⟩ := result
      have moved := moved₁.trans moved₂
      dsimp only
      split
      · refine finish_keeps inv₂ (safe.moves moved) (window.moves moved) start events confirmed.1 ?_
        intro done
        have whole : sent = evs.length := confirmed.2 done
        omega
      · trivial

/-- The rows of a window that a query returned. -/
theorem window_of_selects {from_ upper now : Int} {rows : List (Json.Value Token)}
    (selects : (query from_ upper).Selects w.org rows) (known : now ∈ w.serverTimes)
    (ends : upper = truncateSecond (now - p.lag)) :
    ∃ deals, Window p.lag (truncateSecond from_) upper deals w ∧ rows = deals.map fun d => d.row.json := by
  obtain ⟨low, high, lower, higher, rfl⟩ := selects
  rw [parseDateTime_literal] at lower higher
  have lower : low = truncateSecond from_ := by
    split at lower
    · exact (Option.some.inj lower).symm
    · cases lower
  have higher : high = upper := by
    split at higher
    · rw [← Option.some.inj higher, ends, truncateSecond, truncateSecond, nanosPerSecond]
      omega
    · cases higher
  subst lower higher
  refine ⟨_, ⟨⟨now, known, ?_⟩, fun d mem won ge lt => ?_, fun d mem => ?_, ?_⟩, rfl⟩
  · rw [ends, truncateSecond, nanosPerSecond]
    omega
  · exact mem_selected.mpr ⟨mem, by simp [inWindow, won, ge, lt]⟩
  · have inside := (mem_selected.mp mem).2
    simp only [inWindow, Bool.and_eq_true, decide_eq_true_eq] at inside
    exact inside.2
  · refine (selected_stamps _ _).imp fun le => ?_
    rw [Deal.stamp, Deal.stamp]
    omega

theorem run_keeps (w : World) (inv : (polls S p initial).inv w) :
    Keeps (polls S p initial) (fun _ _ => True) p.run w := by
  refine polls_sequence inv get_keeps fun result w₁ inv₁ _ safe => ?_
  cases result with
  | error err => trivial
  | ok from_ =>
      have safe := safe from_ rfl
      refine Keeps.perform_bind fun w₂ moved₂ inv₂ reply w₃ answered => ?_
      have moved₃ : Moves p.lag w₂ w₃ := by
        rw [answered]
        refine ⟨List.Subset.refl _, ?_, fun _ mem => .inl mem⟩
        cases reply with
        | error err => exact List.Subset.refl _
        | ok now => exact fun t mem => List.mem_append_left _ mem
      have inv₃ := inv_moves inv₂ moved₃ (by rw [answered])
      refine ⟨inv₃, moved₃, ?_⟩
      cases reply with
      | error err => trivial
      | ok now =>
          have known : now ∈ w₃.serverTimes := by
            rw [answered]
            exact List.mem_append_right _ List.mem_cons_self
          have safe₃ := (safe.moves moved₂).moves moved₃
          dsimp only
          split
          · trivial
          · -- The window is queried.
            refine polls_sequence inv₃ queryAll_keeps fun result w₄ inv₄ moved₄ answered => ?_
            cases result with
            | error err => trivial
            | ok rows =>
                obtain ⟨records, selects, decoded⟩ := answered rows rfl
                obtain ⟨deals, window, rfl⟩ := window_of_selects selects (moved₄.clock known) rfl
                have start : truncateSecond from_ ≤ from_ := by
                  rw [truncateSecond, nanosPerSecond]
                  omega
                exact publishRows_keeps inv₄ (safe₃.moves moved₄) window start
                  (forall₂_unmarshalAll decoded)

end Programs

/-! ### Every interleaving -/

/-- The poller's runs. -/
inductive Runs (p : Poller) : Unit → Act (Result × Option RunError) → Prop where
  | run : Runs p () p.run

/-- What happens around the runs: no row stamped before a known time less the lag
appears, and nobody else writes the watermark. -/
def Around (p : Poller) (w w' : World) : Prop :=
  Moves p.lag w w' ∧ w'.parameters p.watermark.name = w.parameters p.watermark.name

/-- In every state reached, every deal that is won now and stamped between the
watermark of the start and the stored one is published at this stamp. -/
theorem no_deal_skipped {S : Services} {p : Poller} {w : World} {initial : Int}
    {s : Pool World Unit Request.Answer (Result × Option RunError)}
    (start : p.watermark.stored w = some initial)
    (reached : Pool.Reaches S.Answers (Around p) (Runs p) (Pool.idle w) s) {t : Int}
    (stored : p.watermark.stored s.world = some t) {d : Deal} (here : d ∈ s.world.org)
    (won : d.isWon = true) (low : initial ≤ d.stamp) (high : d.stamp < t) : Published s.world d := by
  have inv : (polls S p initial).inv w := by
    intro t' stored'
    cases start.symm.trans stored'
    exact safe_initial p.lag initial w
  have sound : Pool.Sound (polls S p initial) (fun _ _ _ => True) s := by
    refine (Pool.sound_idle inv).reaches (fun _ _ _ _ _ _ _ => trivial)
      (fun v v' inv around => ⟨inv_moves inv around.1 around.2, around.1⟩) (fun _ _ guar => guar)
      (fun _ program v starts inv => ?_) reached
    cases starts with
    | run => exact run_keeps v inv
  exact (sound.inv t stored).covered d here won low high

/-! ### Runs over one deal, and over two -/

/-- A deal won one second after the start. -/
def earlyDeal : Deal :=
  ⟨"006A00000000001AAA", some "Renewal", some "Closed Won", true, none, none, none, none, 1000⟩

/-- A deal won fifteen seconds after the start. -/
def laterDeal : Deal :=
  ⟨"006A00000000002AAA", some "Renewal", some "Closed Won", true, none, none, none, none, 15000⟩

def earlyPoller : Poller := ⟨⟨"/relay/ingest/watermark", 0⟩, 0⟩

def earlyWorld : World := { World.empty with org := [earlyDeal] }

/-- A run over one deal of the first second, up to the stored watermark. -/
theorem oneDeal_exec {S : Services} {answers : (request : Request) → World → request.Answer → World → Prop}
    (admits : Admits S 10000000000 answers) (env : World → World → Prop) {d : Deal} (won : d.isWon = true)
    (stamp : d.systemModstamp = 1000) :
    ∃ result w' ev m, Exec answers env earlyPoller.run { World.empty with org := [d] } (result, none) w' ∧
      w'.org = [d] ∧ w'.reads = [(query 0 10000000000, [d])] ∧
      earlyPoller.watermark.stored w' = some 10000000000 ∧ w'.erp = Dynamo.State.empty ∧
      w'.sqs = Sqs.State.empty.push .main m ∧ IsEventOf d ev ∧ m.body = marshal ev := by
  let w : World := { World.empty with org := [d] }
  have inside : inWindow 0 10000000000 d = true := by
    rw [inWindow, won, Deal.stamp, stamp]
    decide
  have deals : selected (inWindow (truncateSecond 0) 10000000000) w.org = [d] := by
    rw [selected, show truncateSecond 0 = 0 from rfl, List.filter_cons, if_pos inside]
    rfl
  have legible : ∀ d' ∈ [d], Legible d'.stamp := by
    intro d' mem
    rw [List.mem_singleton.mp mem, Legible, Deal.stamp, stamp]
    decide
  obtain ⟨result, evs, sqs, events, sent, run⟩ := @run_exec_published S answers env earlyPoller w w 0
    10000000000 10000000000 admits rfl .refl (by decide) (by decide) (by decide) (by decide) [d] deals legible
    (by simp) (by simp)
  obtain ⟨ev, rfl, event⟩ : ∃ ev, evs = [ev] ∧ IsEventOf d ev := by
    cases events with
    | cons event rest =>
        cases rest
        exact ⟨_, rfl, event⟩
  obtain ⟨m, body, pushed⟩ : ∃ m, m.body = marshal ev ∧ sqs = Sqs.State.empty.push .main m := by
    cases sent with
    | cons first rest =>
        cases rest
        obtain ⟨m, body, -, -, pushed⟩ := first
        exact ⟨m, body, pushed⟩
  exact ⟨result, _, ev, m, run, rfl, rfl, stored_marked (by decide) sqs, rfl, pushed, event, body⟩

theorem earlyRun_exec (S : Services) (env : World → World → Prop) :
    ∃ result w', Exec S.Answers env earlyPoller.run earlyWorld (result, none) w' ∧
      w'.org = [earlyDeal] ∧ w'.reads = [(query 0 10000000000, [earlyDeal])] ∧
      earlyPoller.watermark.stored w' = some 10000000000 ∧ ∃ m, m ∈ w'.sqs.queue .main := by
  obtain ⟨result, w', ev, m, run, org, reads, stored, -, sent, -, -⟩ :=
    oneDeal_exec (admits_answers S _) env (d := earlyDeal) rfl rfl
  refine ⟨result, w', run, org, reads, stored, m, ?_⟩
  rw [sent]
  exact mem_push.mpr (.inr ⟨rfl, rfl⟩)

/-- Another run, beside which this one goes on. -/
def OtherRun (S : Services) (p : Poller) (w w' : World) : Prop :=
  ∃ result, Exec S.Answers (Around p) p.run w result w'

/-- A slow run reads the watermark; a fast one polls the first twenty seconds and publishes both
deals; then the clock goes back, and the slow one polls the first ten seconds and moves the
watermark back to there. -/
theorem overlapping_runs (S : Services) :
    ∃ s, Pool.Reaches S.Answers (Around earlyPoller) (Runs earlyPoller)
        (Pool.idle { World.empty with org := [earlyDeal, laterDeal] }) s ∧
      s.running = [] ∧ s.world.org = [earlyDeal, laterDeal] ∧
      s.world.serverTimes = [20000000000, 10000000000] ∧
      earlyPoller.watermark.stored s.world = some 10000000000 := by
  let w : World := { World.empty with org := [earlyDeal, laterDeal] }
  obtain ⟨result, evs, sqs, -, -, fast⟩ := @run_exec_published S S.Answers (Around earlyPoller) earlyPoller
    w w 0 20000000000 20000000000 (admits_answers S _) rfl .refl (by decide) (by decide) (by decide) (by decide)
    [earlyDeal, laterDeal] (by decide) (by decide) (by decide) (by decide)
  let w₁ := marked earlyPoller 20000000000 sqs (queried 0 20000000000 20000000000 w)
  -- The fast run goes between the first two calls of the slow one.
  have between : Relation.ReflTransGen (OtherRun S earlyPoller) w w₁ := .single ⟨_, fast⟩
  obtain ⟨result', evs', sqs', -, -, slow⟩ := @run_exec_published S S.Answers (OtherRun S earlyPoller)
    earlyPoller w w₁ 0 10000000000 10000000000 (admits_answers S _) rfl between (by decide) (by decide) (by decide)
    (by decide) [earlyDeal] rfl (by decide) (by decide) (by decide)
  have others : ∀ u v, OtherRun S earlyPoller u v → ∀ running finished, ∃ more,
      Pool.Reaches S.Answers (Around earlyPoller) (Runs earlyPoller) ⟨u, running, finished⟩
        ⟨v, running, more ++ finished⟩ := by
    rintro u v ⟨result, run⟩ running finished
    exact ⟨[((), result)], Pool.reaches_exec (Runs.run : Runs earlyPoller () earlyPoller.run) run running finished⟩
  obtain ⟨more, overlapping⟩ := Pool.reaches_beside others slow () [] []
  have started : Pool.Step S.Answers (Around earlyPoller) (Runs earlyPoller) (Pool.idle w)
      ⟨w, [((), earlyPoller.run)], []⟩ := .start .run
  exact ⟨_, .head started overlapping, rfl, rfl, rfl, stored_marked (by decide) sqs'⟩

/-- The deal before the watermark that was moved back is published. -/
theorem no_deal_skipped_overlapping : ∃ s : Pool World Unit Request.Answer (Result × Option RunError),
    Pool.Reaches (Services.Answers ⟨fun _ => 0⟩) (Around earlyPoller) (Runs earlyPoller)
      (Pool.idle { World.empty with org := [earlyDeal, laterDeal] }) s ∧
    s.world.serverTimes = [20000000000, 10000000000] ∧
    earlyPoller.watermark.stored s.world = some 10000000000 ∧ Published s.world earlyDeal := by
  obtain ⟨s, reached, -, org, times, stored⟩ := overlapping_runs ⟨fun _ => 0⟩
  have here : earlyDeal ∈ s.world.org := by simp [org]
  exact ⟨s, reached, times, stored, no_deal_skipped rfl reached stored here rfl (by decide) (by decide)⟩

end Relay.Ingest
