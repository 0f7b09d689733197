import Relay.Effect.Trace
import Relay.Relayctl.Dlq
import Relay.Sqs.Tray

/-!
The operator's commands when a message is delivered twice.

`collect` keeps the first delivery of a message, and with it a receipt that the
second delivery makes stale. So a command acts on a message if and only if the
receives delivered it once (`receipts_act_iff`); on the others it reports a
success that had no effect.
-/

namespace Relay.Relayctl

open Relay.Platform Relay.Effect Relay.Sqs Relation

/-- The two queues while one command runs. -/
structure Bench where
  /-- The bodies and attributes on the main queue. -/
  main : List (String × List (String × String))
  dlq : Tray

/-- What a call may see, and how it may leave the queues. -/
def Bench.Answers : (request : Request) → Bench → request.Answer → Bench → Prop
  | .receiveMessage .deadLetters max, q, reply, q' =>
      ∃ dlq, q.dlq.Receives max reply dlq ∧ q' = { q with dlq := dlq }
  | .sendMessage .main body attributes, q, reply, q' =>
      match reply with
      | .error _ => q' = q ∨ q' = { q with main := q.main ++ [(body, attributes)] }
      | .ok () => q' = { q with main := q.main ++ [(body, attributes)] }
  | .deleteMessage .deadLetters receipt, q, reply, q' =>
      match reply with
      | .error _ => q' = q ∨ q' = { q with dlq := q.dlq.delete receipt }
      | .ok () => q' = { q with dlq := q.dlq.delete receipt }
  | .changeMessageVisibility .deadLetters receipt _, q, reply, q' =>
      reply = .ok () ∧ q' = { q with dlq := q.dlq.release receipt }
  | _, q, _, q' => q' = q

/-- Nobody else uses the queues. -/
def Sole (_ _ : Bench) : Prop := False

/-- A command's run: its calls, what it returned and what it left. -/
abbrev Operates {α : Type} (program : Act α) (q : Bench) (calls : List (Exchange Request.Answer)) (result : α)
    (q' : Bench) : Prop := Traced Bench.Answers Sole program q calls result q'

theorem sole_star {q q' : Bench} (moves : ReflTransGen Sole q q') : q = q' := by
  induction moves with
  | refl => rfl
  | tail _ move _ => exact move.elim

/-- What a receive returned. -/
def deliveredBy : Exchange Request.Answer → List Received
  | ⟨.receiveMessage _ _, .ok batch⟩ => batch
  | _ => []

/-- What the receives of a run returned, in order. -/
def delivered (calls : List (Exchange Request.Answer)) : List Received := calls.flatMap deliveredBy

/-- The receives returned this message once. -/
def Once (seen : List Received) (m : DeadLetter) : Prop := (seen.map Received.id).count m.messageId = 1

/-! ### Receiving -/

/-- The messages kept of all that was delivered, and the receipts they were kept with. -/
structure Gathered (seen : List Received) (t : Tray) (out : List DeadLetter) : Prop where
  distinct : (out.map DeadLetter.messageId).Nodup
  all : ∀ id, id ∈ out.map DeadLetter.messageId ↔ id ∈ seen.map Received.id
  named : ∀ m ∈ out, m.receipt.messageId = m.messageId
  there : ∀ m ∈ out, t.Has m.messageId
  held : ∀ m ∈ out, m.messageId ∈ t.held
  /-- The receipt kept is older than the last one, or the only one. -/
  receipt : ∀ m ∈ out, ∃ n, t.latest m.messageId = some n ∧
    (m.receipt.serial = n ∧ Once seen m ∨ m.receipt.serial < n ∧ ¬ Once seen m)

theorem Gathered.live {seen : List Received} {t : Tray} {out : List DeadLetter} (gathered : Gathered seen t out)
    {m : DeadLetter} (mem : m ∈ out) : t.Live m.receipt ↔ Once seen m := by
  obtain ⟨n, latest, only | older⟩ := gathered.receipt m mem
  · refine iff_of_true ?_ only.2
    rw [Tray.Live, gathered.named m mem, latest, only.1]
  · refine iff_of_false ?_ older.2
    rw [Tray.Live, gathered.named m mem, latest]
    intro same
    exact older.1.ne' (Option.some.inj same)

theorem Gathered.perm {seen : List Received} {t : Tray} {out out' : List DeadLetter}
    (gathered : Gathered seen t out) (perm : out'.Perm out) : Gathered seen t out' where
  distinct := (perm.map _).nodup_iff.mpr gathered.distinct
  all := fun id => ((perm.map _).mem_iff).trans (gathered.all id)
  named := fun m mem => gathered.named m (perm.mem_iff.mp mem)
  there := fun m mem => gathered.there m (perm.mem_iff.mp mem)
  held := fun m mem => gathered.held m (perm.mem_iff.mp mem)
  receipt := fun m mem => gathered.receipt m (perm.mem_iff.mp mem)

theorem gathered_nil (t : Tray) : Gathered [] t [] := ⟨by simp, by simp, by simp, by simp, by simp, by simp⟩

theorem once_snoc (seen : List Received) (r : Received) (m : DeadLetter) :
    Once (seen ++ [r]) m ↔
      (seen.map Received.id).count m.messageId + (if r.id = m.messageId then 1 else 0) = 1 := by
  simp [Once, List.count_append, List.count_singleton]

/-- A delivery of a message that is held already makes the receipt that was kept stale. -/
theorem Gathered.again {seen : List Received} {t : Tray} {out : List DeadLetter} (gathered : Gathered seen t out)
    {r : Received} (delivers : t.Delivers r) (known : r.id ∈ out.map DeadLetter.messageId) :
    Gathered (seen ++ [r]) (t.deliver r) out where
  distinct := gathered.distinct
  all := by
    intro id
    rw [gathered.all id, List.map_append, List.mem_append]
    refine ⟨.inl, ?_⟩
    rintro (mem | here)
    · exact mem
    · rw [List.mem_singleton.mp here]
      exact (gathered.all r.id).mp known
  named := gathered.named
  there := gathered.there
  held := fun m mem => List.mem_cons_of_mem _ (gathered.held m mem)
  receipt := by
    intro m mem
    obtain ⟨n, latest, which⟩ := gathered.receipt m mem
    by_cases same : r.id = m.messageId
    · have newer : n < r.receiptHandle.serial := delivers.fresh n (by rw [same]; exact latest)
      have before : 0 < (seen.map Received.id).count m.messageId := by
        rw [List.count_pos_iff]
        exact (gathered.all _).mp (List.mem_map_of_mem mem)
      refine ⟨r.receiptHandle.serial, ?_, .inr ⟨?_, ?_⟩⟩
      · rw [← same]
        exact Function.update_self _ _ _
      · rcases which with only | older
        · exact only.1.trans_lt newer
        · exact older.1.trans newer
      · rw [once_snoc, if_pos same]
        omega
    · refine ⟨n, ?_, ?_⟩
      · rw [← latest]
        exact Function.update_of_ne (Ne.symm same) _ _
      · rw [once_snoc, if_neg same]
        exact which

/-- The first delivery of a message is kept with its receipt. -/
theorem Gathered.first {seen : List Received} {t : Tray} {out : List DeadLetter} (gathered : Gathered seen t out)
    {r : Received} (delivers : t.Delivers r) (unknown : r.id ∉ out.map DeadLetter.messageId) :
    Gathered (seen ++ [r]) (t.deliver r) (out ++ [toDeadLetter r]) := by
  have apart : ∀ m ∈ out, r.id ≠ m.messageId := by
    rintro m mem same
    exact unknown (same ▸ List.mem_map_of_mem mem)
  have either : ∀ m ∈ out ++ [toDeadLetter r], m ∈ out ∨ m = toDeadLetter r := by simp
  constructor
  · rw [List.map_append, List.nodup_append]
    refine ⟨gathered.distinct, by simp, ?_⟩
    rintro id mem id' here rfl
    rw [List.mem_singleton.mp here] at mem
    exact unknown mem
  · intro id
    rw [List.map_append, List.map_append, List.mem_append, List.mem_append, gathered.all id]
    rfl
  · intro m mem
    rcases either m mem with mem | rfl
    · exact gathered.named m mem
    · exact delivers.receipt
  · intro m mem
    rcases either m mem with mem | rfl
    · exact gathered.there m mem
    · exact ⟨r.message, delivers.stored, rfl⟩
  · intro m mem
    rcases either m mem with mem | rfl
    · exact List.mem_cons_of_mem _ (gathered.held m mem)
    · exact List.mem_cons_self
  · intro m mem
    rcases either m mem with mem | rfl
    · obtain ⟨n, latest, which⟩ := gathered.receipt m mem
      refine ⟨n, ?_, ?_⟩
      · rw [← latest]
        exact Function.update_of_ne (apart m mem).symm _ _
      · rw [once_snoc, if_neg (apart m mem)]
        exact which
    · refine ⟨r.receiptHandle.serial, Function.update_self _ _ _, .inl ⟨rfl, ?_⟩⟩
      have none_ : (seen.map Received.id).count r.id = 0 := by
        rw [List.count_eq_zero]
        exact fun mem => unknown ((gathered.all _).mpr mem)
      rw [once_snoc, if_pos (show r.id = (toDeadLetter r).messageId from rfl)]
      exact congrArg (· + 1) none_

theorem gathered_collect {seen batch : List Received} {t t' : Tray} {out : List DeadLetter}
    (gathered : Gathered seen t out) (delivers : t.DeliversAll batch t') :
    Gathered (seen ++ batch) t' (collect out batch) := by
  induction delivers generalizing seen out with
  | nil => simpa [collect] using gathered
  | @cons t t' r rest one _ ih =>
      have split : seen ++ r :: rest = seen ++ [r] ++ rest := by simp
      rw [split, collect]
      split
      · rename_i known
        exact ih (gathered.again one known)
      · rename_i unknown
        exact ih (gathered.first one unknown)

/-- What the receive loop holds when it ends. -/
theorem peekLoop_gathered {limit fuel empty : Nat} {out msgs : List DeadLetter} {err : Option String}
    {seen : List Received} {q q' : Bench} {calls : List (Exchange Request.Answer)}
    (gathered : Gathered seen q.dlq out)
    (run : Operates (peekLoop limit fuel empty out) q calls (some (msgs, err)) q') :
    Gathered (seen ++ delivered calls) q'.dlq msgs := by
  induction fuel generalizing empty out seen q calls with
  | zero =>
      obtain ⟨-, done, -⟩ := Traced.of_ret run
      cases done
  | succ fuel ih =>
      rw [peekLoop] at run
      split at run
      · obtain ⟨q₁, reply, q₂, later, rfl, moves, ⟨dlq, answered, rfl⟩, run⟩ := Traced.of_perform_bind run
        obtain rfl := sole_star moves
        cases reply with
        | error message =>
            obtain ⟨rfl, done, rfl⟩ := Traced.of_ret run
            cases done
            obtain rfl : dlq = q.dlq := answered
            simpa [delivered, deliveredBy] using gathered
        | ok batch =>
            obtain ⟨-, delivers⟩ := answered
            have collected := gathered_collect gathered delivers
            have more : seen ++ delivered (⟨.receiveMessage .deadLetters 10, .ok batch⟩ :: later) =
                seen ++ batch ++ delivered later := (List.append_assoc _ _ _).symm
            rw [more]
            cases batch with
            | nil => exact ih collected run
            | cons first rest => exact ih collected run
      · obtain ⟨rfl, done, rfl⟩ := Traced.of_ret run
        cases done
        rw [delivered, List.flatMap_nil, List.append_nil]
        exact gathered.perm (List.perm_insertionSort _ out)

/-! ### Acting on what was received -/

/-- Only messages with these ids may have gone, and no delivery was made. -/
structure Spares (ids : List String) (t t' : Tray) : Prop where
  latest : t'.latest = t.latest
  fewer : ∀ id, t'.Has id → t.Has id
  kept : ∀ id, id ∉ ids → t.Has id → t'.Has id

theorem Spares.refl (ids : List String) (t : Tray) : Spares ids t t :=
  ⟨rfl, fun _ has => has, fun _ _ has => has⟩

theorem Spares.trans {ids : List String} {t₁ t₂ t₃ : Tray} (first : Spares ids t₁ t₂)
    (second : Spares ids t₂ t₃) : Spares ids t₁ t₃ where
  latest := second.latest.trans first.latest
  fewer := fun id has => first.fewer id (second.fewer id has)
  kept := fun id other has => second.kept id other (first.kept id other has)

theorem Spares.mono {ids ids' : List String} {t t' : Tray} (spares : Spares ids t t') (more : ids ⊆ ids') :
    Spares ids' t t' :=
  { spares with kept := fun id other => spares.kept id fun mem => other (more mem) }

/-- A message of another id stays if and only if it was there. -/
theorem Spares.has_iff {ids : List String} {t t' : Tray} (spares : Spares ids t t') {id : String}
    (other : id ∉ ids) : t'.Has id ↔ t.Has id := ⟨spares.fewer id, spares.kept id other⟩

theorem Spares.live_iff {ids : List String} {t t' : Tray} (spares : Spares ids t t') (receipt : Receipt) :
    t'.Live receipt ↔ t.Live receipt := by rw [Tray.Live, Tray.Live, spares.latest]

theorem spares_delete (t : Tray) (receipt : Receipt) : Spares [receipt.messageId] t (t.delete receipt) where
  latest := Tray.delete_latest t receipt
  fewer := fun _ has => (Tray.delete_has.mp has).1
  kept := fun _ other has => Tray.delete_has.mpr ⟨has, fun here => other (List.mem_singleton.mpr here.1)⟩

theorem spares_release (t : Tray) (receipt : Receipt) : Spares [] t (t.release receipt) := by
  have same : ∀ id, (t.release receipt).Has id ↔ t.Has id := fun id => by
    rw [Tray.Has, Tray.Has, Tray.release_stored]
  exact ⟨Tray.release_latest t receipt, fun id => (same id).mp, fun id _ => (same id).mpr⟩

/-- A release makes those messages visible whose receipts are live. -/
theorem release_acts {msgs : List DeadLetter} {q q' : Bench} {calls : List (Exchange Request.Answer)}
    (run : Operates (release msgs) q calls () q') :
    delivered calls = [] ∧ Spares [] q.dlq q'.dlq ∧ ∀ id, id ∈ q'.dlq.held ↔
      id ∈ q.dlq.held ∧ ∀ m ∈ msgs, ¬ (id = m.receipt.messageId ∧ q.dlq.Live m.receipt) := by
  induction msgs generalizing q calls with
  | nil =>
      obtain ⟨rfl, -, rfl⟩ := Traced.of_ret run
      exact ⟨rfl, Spares.refl _ _, by simp⟩
  | cons m rest ih =>
      rw [release] at run
      obtain ⟨q₁, reply, q₂, later, rfl, moves, ⟨-, rfl⟩, run⟩ := Traced.of_perform_bind run
      obtain rfl := sole_star moves
      obtain ⟨none_, spares, held⟩ := ih run
      have first := spares_release q.dlq m.receipt
      refine ⟨none_, first.trans spares, fun id => ?_⟩
      rw [held, Tray.mem_release_held, List.forall_mem_cons, and_assoc]
      simp only [first.live_iff]

/-- A command that releases some messages and returns. -/
theorem release_return {α : Type} {msgs : List DeadLetter} {value result : α} {q q' : Bench}
    {calls : List (Exchange Request.Answer)}
    (run : Operates (release msgs >>= fun _ => .ret value) q calls result q') :
    result = value ∧ delivered calls = [] ∧ Spares [] q.dlq q'.dlq ∧ ∀ id, id ∈ q'.dlq.held ↔
      id ∈ q.dlq.held ∧ ∀ m ∈ msgs, ¬ (id = m.receipt.messageId ∧ q.dlq.Live m.receipt) := by
  obtain ⟨_, q₁, before, after, rfl, released, run⟩ := Traced.of_bind run
  obtain ⟨rfl, ended, rfl⟩ := Traced.of_ret run
  rw [List.append_nil]
  exact ⟨ended, release_acts released⟩

section Deletes

variable {q q' : Bench} {calls : List (Exchange Request.Answer)} {m : DeadLetter} {rest : List DeadLetter}

/-- The messages that a loop has still to look at. -/
structure Ahead (t : Tray) (rest : List DeadLetter) : Prop where
  distinct : (rest.map DeadLetter.messageId).Nodup
  named : ∀ m ∈ rest, m.receipt.messageId = m.messageId
  there : ∀ m ∈ rest, t.Has m.messageId

theorem Gathered.ahead {seen : List Received} {t : Tray} {out : List DeadLetter} (gathered : Gathered seen t out) :
    Ahead t out := ⟨gathered.distinct, gathered.named, gathered.there⟩

theorem Ahead.next {t t' : Tray} (ahead : Ahead t (m :: rest)) (spares : Spares [m.messageId] t t') :
    Ahead t' rest := by
  obtain ⟨own, others⟩ := List.nodup_cons.mp ahead.distinct
  refine ⟨others, fun m' mem => ahead.named m' (List.mem_cons_of_mem _ mem), fun m' mem => ?_⟩
  refine spares.kept _ (fun same => own ?_) (ahead.there m' (List.mem_cons_of_mem _ mem))
  rw [← List.mem_singleton.mp same]
  exact List.mem_map_of_mem mem

/-- Whether a message that was acted on is gone once the loop over the others has ended. -/
theorem Ahead.has_iff {t t₁ t₂ : Tray} {dryRun : Bool} (ahead : Ahead t (m :: rest))
    (acted : t₁ = if dryRun then t else t.delete m.receipt)
    (later : Spares (rest.map DeadLetter.messageId) t₁ t₂) :
    t₂.Has m.messageId ↔ ¬ (dryRun = false ∧ t.Live m.receipt) := by
  obtain ⟨own, -⟩ := List.nodup_cons.mp ahead.distinct
  have there := ahead.there m List.mem_cons_self
  rw [later.has_iff own, acted]
  cases dryRun with
  | true => exact iff_of_true there (by simp)
  | false =>
      rw [if_neg Bool.false_ne_true, Tray.delete_has, ahead.named m List.mem_cons_self]
      simp [there]

/-- Of the messages that a redrive lists as moved, those with a live receipt are gone. -/
theorem redriveLoop_acts {all dryRun : Bool} {result done : RedriveResult} {keep : List DeadLetter}
    {err : Option String} (ahead : Ahead q.dlq rest)
    (run : Operates (redriveLoop all dryRun result keep rest) q calls (done, err) q') :
    delivered calls = [] ∧ Spares (rest.map DeadLetter.messageId) q.dlq q'.dlq ∧
      ∃ more, done.moved = result.moved ++ more ∧ ∀ m ∈ more, m ∈ rest ∧
        (q'.dlq.Has m.messageId ↔ ¬ (dryRun = false ∧ q.dlq.Live m.receipt)) := by
  induction rest generalizing result keep q calls with
  | nil =>
      obtain ⟨ended, none_, spares, -⟩ := release_return run
      cases ended
      exact ⟨none_, spares, [], by simp, by simp⟩
  | cons m rest ih =>
      have others : rest.map DeadLetter.messageId ⊆ (m :: rest).map DeadLetter.messageId :=
        List.subset_cons_self _ _
      have own : [m.messageId] ⊆ (m :: rest).map DeadLetter.messageId := by simp
      rw [redriveLoop] at run
      split at run
      · -- The message is skipped.
        obtain ⟨none_, spares, more, moved, acted⟩ := ih (ahead.next (Spares.refl _ _)) run
        refine ⟨none_, spares.mono others, more, moved, fun m' mem => ?_⟩
        exact ⟨List.mem_cons_of_mem _ (acted m' mem).1, (acted m' mem).2⟩
      · split at run
        · rename_i dry
          obtain ⟨none_, spares, more, moved, acted⟩ := ih (ahead.next (Spares.refl _ _)) run
          refine ⟨none_, spares.mono others, m :: more, ?_, fun m' mem => ?_⟩
          · rw [moved, List.append_assoc]
            rfl
          · rcases List.mem_cons.mp mem with rfl | mem
            · exact ⟨List.mem_cons_self, ahead.has_iff (by rw [if_pos dry]) spares⟩
            · exact ⟨List.mem_cons_of_mem _ (acted m' mem).1, (acted m' mem).2⟩
        · rename_i wet
          obtain ⟨q₁, sent, q₂, later, rfl, moves, answered, run⟩ := Traced.of_perform_bind run
          obtain rfl := sole_star moves
          have same : q₂.dlq = q.dlq := by
            cases sent with
            | error message =>
                rcases answered with rfl | rfl
                · rfl
                · rfl
            | ok done => rw [show q₂ = _ from answered]
          cases sent with
          | error message =>
              obtain ⟨ended, none_, spares, -⟩ := release_return run
              cases ended
              rw [same] at spares
              exact ⟨none_, spares.mono (List.nil_subset _), [], by simp, by simp⟩
          | ok done =>
              obtain ⟨q₃, deleted, q₄, later, rfl, moves, answered, run⟩ := Traced.of_perform_bind run
              obtain rfl := sole_star moves
              have named := ahead.named m List.mem_cons_self
              have deletes := spares_delete q.dlq m.receipt
              rw [named] at deletes
              cases deleted with
              | error message =>
                  obtain ⟨ended, none_, spares, -⟩ := release_return run
                  cases ended
                  have first : Spares [m.messageId] q.dlq q₄.dlq := by
                    rcases answered with rfl | rfl
                    · rw [same]
                      exact Spares.refl _ _
                    · rw [same]
                      exact deletes
                  refine ⟨none_, ?_, [], by simp, by simp⟩
                  exact (first.mono own).trans (spares.mono (List.nil_subset _))
              | ok done =>
                  have gone : q₄.dlq = q.dlq.delete m.receipt := by
                    rw [show q₄ = _ from answered, same]
                  obtain ⟨none_, spares, more, moved, acted⟩ := ih (by rw [gone]; exact ahead.next deletes) run
                  rw [gone] at spares acted
                  refine ⟨none_, (deletes.mono own).trans (spares.mono others), m :: more, ?_, fun m' mem => ?_⟩
                  · rw [moved, List.append_assoc]
                    rfl
                  · rcases List.mem_cons.mp mem with rfl | mem
                    · exact ⟨List.mem_cons_self, ahead.has_iff (by rw [if_neg wet]) spares⟩
                    · refine ⟨List.mem_cons_of_mem _ (acted m' mem).1, ?_⟩
                      rw [(acted m' mem).2, deletes.live_iff]

/-- Of the messages that were acknowledged, those with a live receipt are gone. -/
theorem ackLoop_acts {id : String} {acked keep done : List DeadLetter} (ahead : Ahead q.dlq rest)
    (run : Operates (ackLoop id acked keep rest) q calls done q') :
    delivered calls = [] ∧ Spares (rest.map DeadLetter.messageId) q.dlq q'.dlq ∧
      ∃ more, done = acked ++ more ∧ ∀ m ∈ more, m ∈ rest ∧
        (q'.dlq.Has m.messageId ↔ ¬ q.dlq.Live m.receipt) := by
  induction rest generalizing acked keep q calls with
  | nil =>
      obtain ⟨rfl, none_, spares, -⟩ := release_return run
      exact ⟨none_, spares, [], by simp, by simp⟩
  | cons m rest ih =>
      have others : rest.map DeadLetter.messageId ⊆ (m :: rest).map DeadLetter.messageId :=
        List.subset_cons_self _ _
      have own : [m.messageId] ⊆ (m :: rest).map DeadLetter.messageId := by simp
      rw [ackLoop] at run
      split at run
      · obtain ⟨none_, spares, more, ended, acted⟩ := ih (ahead.next (Spares.refl _ _)) run
        refine ⟨none_, spares.mono others, more, ended, fun m' mem => ?_⟩
        exact ⟨List.mem_cons_of_mem _ (acted m' mem).1, (acted m' mem).2⟩
      · obtain ⟨q₁, deleted, q₂, later, rfl, moves, answered, run⟩ := Traced.of_perform_bind run
        obtain rfl := sole_star moves
        have deletes := spares_delete q.dlq m.receipt
        rw [ahead.named m List.mem_cons_self] at deletes
        cases deleted with
        | error message =>
            have first : Spares [m.messageId] q.dlq q₂.dlq := by
              rcases answered with rfl | rfl
              · exact Spares.refl _ _
              · exact deletes
            obtain ⟨none_, spares, more, ended, acted⟩ := ih (ahead.next first) run
            refine ⟨none_, (first.mono own).trans (spares.mono others), more, ended, fun m' mem => ?_⟩
            refine ⟨List.mem_cons_of_mem _ (acted m' mem).1, ?_⟩
            rw [(acted m' mem).2, first.live_iff]
        | ok done =>
            have gone : q₂.dlq = q.dlq.delete m.receipt := by rw [show q₂ = _ from answered]
            obtain ⟨none_, spares, more, ended, acted⟩ := ih (by rw [gone]; exact ahead.next deletes) run
            rw [gone] at spares acted
            refine ⟨none_, (deletes.mono own).trans (spares.mono others), m :: more, ?_, fun m' mem => ?_⟩
            · rw [ended, List.append_assoc]
              rfl
            · rcases List.mem_cons.mp mem with rfl | mem
              · refine ⟨List.mem_cons_self, ?_⟩
                have acts : q.dlq.delete m'.receipt = if false then q.dlq else q.dlq.delete m'.receipt := rfl
                rw [ahead.has_iff acts spares]
                simp
              · refine ⟨List.mem_cons_of_mem _ (acted m' mem).1, ?_⟩
                rw [(acted m' mem).2, deletes.live_iff]

end Deletes

/-! ### The commands -/

theorem delivered_append (first rest : List (Exchange Request.Answer)) :
    delivered (first ++ rest) = delivered first ++ delivered rest := List.flatMap_append

theorem peek_gathered {fuel limit : Nat} {msgs : List DeadLetter} {err : Option String} {q q' : Bench}
    {calls : List (Exchange Request.Answer)} (run : Operates (peek fuel limit) q calls (some (msgs, err)) q') :
    Gathered (delivered calls) q'.dlq msgs := peekLoop_gathered (gathered_nil q.dlq) run

/-- A message is kept once, with its last receipt if and only if none was delivered twice. -/
theorem Gathered.live_iff_nodup {seen : List Received} {t : Tray} {out : List DeadLetter}
    (gathered : Gathered seen t out) :
    (∀ m ∈ out, t.Live m.receipt) ↔ (seen.map Received.id).Nodup := by
  rw [List.nodup_iff_count_eq_one]
  constructor
  · intro live id mem
    obtain ⟨m, here, rfl⟩ := List.mem_map.mp ((gathered.all id).mpr mem)
    exact (gathered.live here).mp (live m here)
  · intro once m here
    exact (gathered.live here).mpr (once _ ((gathered.all _).mp (List.mem_map_of_mem here)))

theorem redrive_acts {fuel : Nat} {all dryRun : Bool} {done : RedriveResult} {err : Option String}
    {q q' : Bench} {calls : List (Exchange Request.Answer)}
    (run : Operates (redrive fuel all dryRun) q calls (some (done, err)) q') :
    ∀ m ∈ done.moved, ¬ q'.dlq.Has m.messageId ↔ dryRun = false ∧ Once (delivered calls) m := by
  obtain ⟨peeked, q₁, before, after, rfl, peeks, run⟩ := Traced.of_bind run
  rw [delivered_append]
  cases peeked with
  | none =>
      obtain ⟨-, ended, -⟩ := Traced.of_ret run
      cases ended
  | some peeked =>
      obtain ⟨msgs, stopped⟩ := peeked
      have gathered := peek_gathered peeks
      cases stopped with
      | some message =>
          obtain ⟨ended, -⟩ := release_return run
          cases ended
          simp
      | none =>
          obtain ⟨ended, q₂, between, last, rfl, loop, run⟩ := Traced.of_bind run
          obtain ⟨rfl, same, rfl⟩ := Traced.of_ret run
          cases same
          obtain ⟨none_, -, more, moved, acted⟩ := redriveLoop_acts gathered.ahead loop
          intro m mem
          rw [moved, List.nil_append] at mem
          obtain ⟨here, gone⟩ := acted m mem
          rw [List.append_nil, none_, List.append_nil, gone, not_not, gathered.live here]

theorem ack_acts {fuel : Nat} {id : String} {acked : List DeadLetter} {err : Option String}
    {q q' : Bench} {calls : List (Exchange Request.Answer)}
    (run : Operates (ack fuel id) q calls (some (acked, err)) q') :
    ∀ m ∈ acked, ¬ q'.dlq.Has m.messageId ↔ Once (delivered calls) m := by
  obtain ⟨peeked, q₁, before, after, rfl, peeks, run⟩ := Traced.of_bind run
  rw [delivered_append]
  cases peeked with
  | none =>
      obtain ⟨-, ended, -⟩ := Traced.of_ret run
      cases ended
  | some peeked =>
      obtain ⟨msgs, stopped⟩ := peeked
      have gathered := peek_gathered peeks
      cases stopped with
      | some message =>
          obtain ⟨ended, -⟩ := release_return run
          cases ended
          simp
      | none =>
          obtain ⟨ended, q₂, between, last, rfl, loop, run⟩ := Traced.of_bind run
          obtain ⟨rfl, same, rfl⟩ := Traced.of_ret run
          cases same
          obtain ⟨none_, -, more, rfl, acted⟩ := ackLoop_acts gathered.ahead loop
          intro m mem
          obtain ⟨here, gone⟩ := acted m mem
          rw [List.append_nil, none_, List.append_nil, gone, not_not, gathered.live here]

theorem listDLQ_acts {fuel : Nat} {msgs : List DeadLetter} {err : Option String} {q q' : Bench}
    {calls : List (Exchange Request.Answer)} (run : Operates (listDLQ fuel) q calls (some (msgs, err)) q') :
    ∀ m ∈ msgs, m.messageId ∉ q'.dlq.held ↔ Once (delivered calls) m := by
  obtain ⟨peeked, q₁, before, after, rfl, peeks, run⟩ := Traced.of_bind run
  cases peeked with
  | none =>
      obtain ⟨-, ended, -⟩ := Traced.of_ret run
      cases ended
  | some peeked =>
      have gathered := peek_gathered peeks
      obtain ⟨ended, none_, -, held⟩ := release_return run
      cases ended
      intro m mem
      rw [delivered_append, none_, List.append_nil, held, ← gathered.live mem]
      constructor
      · intro visible
        by_contra stale
        refine visible ⟨gathered.held m mem, fun m' mem' acts => stale ?_⟩
        have same : m' = m := by
          refine List.inj_on_of_nodup_map gathered.distinct mem' mem ?_
          rw [← gathered.named m' mem', acts.1]
        exact same ▸ acts.2
      · intro live still
        exact still.2 m mem ⟨(gathered.named m mem).symm, live⟩

/-! ### One message on the queue -/

def parked : Message := ⟨"m1", "bad", [], 0⟩

def shelved : Bench := ⟨[], ⟨[parked], [], fun _ => none⟩⟩

/-- A delivery of the message with this receipt. -/
def delivery (serial : Nat) : Received := ⟨parked, ⟨"m1", serial⟩, some 1⟩

theorem delivers_parked {t : Tray} {serial : Nat} (here : parked ∈ t.stored)
    (fresh : ∀ n ∈ t.latest "m1", n < serial) : t.DeliversAll [delivery serial] (t.deliver (delivery serial)) :=
  .cons ⟨here, rfl, fresh⟩ .nil

/-- A command acts on a message that it reports if and only if its receives delivered
the message once; a dry run deletes nothing. -/
theorem receipts_act_iff (q q' : Bench) (calls : List (Exchange Request.Answer)) (fuel : Nat)
    (err : Option String) :
    (∀ limit msgs, Operates (peek fuel limit) q calls (some (msgs, err)) q' →
      (msgs.map DeadLetter.messageId).Nodup ∧
        ((∀ m ∈ msgs, q'.dlq.Live m.receipt) ↔ ((delivered calls).map Received.id).Nodup)) ∧
    (∀ all dryRun done, Operates (redrive fuel all dryRun) q calls (some (done, err)) q' →
      ∀ m ∈ done.moved, ¬ q'.dlq.Has m.messageId ↔ dryRun = false ∧ Once (delivered calls) m) ∧
    (∀ id acked, Operates (ack fuel id) q calls (some (acked, err)) q' →
      ∀ m ∈ acked, ¬ q'.dlq.Has m.messageId ↔ Once (delivered calls) m) ∧
    (∀ msgs, Operates (listDLQ fuel) q calls (some (msgs, err)) q' →
      ∀ m ∈ msgs, m.messageId ∉ q'.dlq.held ↔ Once (delivered calls) m) := by
  refine ⟨fun limit msgs run => ?_, fun all dryRun done run => redrive_acts run,
    fun id acked run => ack_acts run, fun msgs run => listDLQ_acts run⟩
  have gathered := peek_gathered run
  exact ⟨gathered.distinct, gathered.live_iff_nodup⟩

/-- Delivered once, the message is acknowledged and gone. -/
theorem receipts_act_once : ∃ calls q', Operates (ack 4 "m1") shelved calls
    (some ([toDeadLetter (delivery 0)], none)) q' ∧ ¬ q'.dlq.Has "m1" := by
  let q₁ : Bench := { shelved with dlq := shelved.dlq.deliver (delivery 0) }
  have first : Bench.Answers (.receiveMessage .deadLetters 10) shelved (.ok [delivery 0]) q₁ :=
    ⟨_, ⟨by simp, delivers_parked (by simp [shelved]) (by simp [shelved])⟩, rfl⟩
  have none_ : Bench.Answers (.receiveMessage .deadLetters 10) q₁ (.ok []) q₁ := ⟨_, ⟨by simp, .nil⟩, rfl⟩
  have peeked : Operates (peek 4 1000) shelved _ (some ([toDeadLetter (delivery 0)], none)) q₁ :=
    .call .refl first (.call .refl none_ (.call .refl none_ .ret))
  have deleted : Bench.Answers (.deleteMessage .deadLetters ⟨"m1", 0⟩) q₁ (.ok ())
    { q₁ with dlq := q₁.dlq.delete ⟨"m1", 0⟩ } := rfl
  have acked : Operates (ackLoop "m1" [] [] [toDeadLetter (delivery 0)]) q₁ _ [toDeadLetter (delivery 0)]
      { q₁ with dlq := q₁.dlq.delete ⟨"m1", 0⟩ } := .call .refl deleted .ret
  have run : Operates (ack 4 "m1") shelved _ (some ([toDeadLetter (delivery 0)], none)) _ :=
    peeked.bind (acked.bind .ret)
  refine ⟨_, _, run, ?_⟩
  exact ((receipts_act_iff _ _ _ _ _).2.2.1 _ _ run _ List.mem_cons_self).mpr rfl

/-- Delivered twice within the peek, it is acknowledged and still there. -/
theorem ack_without_effect : ∃ calls q', Operates (ack 5 "m1") shelved calls
    (some ([toDeadLetter (delivery 0)], none)) q' ∧ q'.dlq.Has "m1" := by
  let q₁ : Bench := { shelved with dlq := shelved.dlq.deliver (delivery 0) }
  let q₂ : Bench := { q₁ with dlq := q₁.dlq.deliver (delivery 1) }
  have first : Bench.Answers (.receiveMessage .deadLetters 10) shelved (.ok [delivery 0]) q₁ :=
    ⟨_, ⟨by simp, delivers_parked (by simp [shelved]) (by simp [shelved])⟩, rfl⟩
  have again : Bench.Answers (.receiveMessage .deadLetters 10) q₁ (.ok [delivery 1]) q₂ := by
    refine ⟨_, ⟨by simp, delivers_parked (by simp [q₁, shelved, Tray.deliver]) ?_⟩, rfl⟩
    rintro n ⟨⟩
    exact Nat.zero_lt_one
  have none_ : Bench.Answers (.receiveMessage .deadLetters 10) q₂ (.ok []) q₂ := ⟨_, ⟨by simp, .nil⟩, rfl⟩
  have peeked : Operates (peek 5 1000) shelved _ (some ([toDeadLetter (delivery 0)], none)) q₂ :=
    .call .refl first (.call .refl again (.call .refl none_ (.call .refl none_ .ret)))
  have deleted : Bench.Answers (.deleteMessage .deadLetters ⟨"m1", 0⟩) q₂ (.ok ())
    { q₂ with dlq := q₂.dlq.delete ⟨"m1", 0⟩ } := rfl
  have acked : Operates (ackLoop "m1" [] [] [toDeadLetter (delivery 0)]) q₂ _ [toDeadLetter (delivery 0)]
      { q₂ with dlq := q₂.dlq.delete ⟨"m1", 0⟩ } := .call .refl deleted .ret
  have run : Operates (ack 5 "m1") shelved _ (some ([toDeadLetter (delivery 0)], none)) _ :=
    peeked.bind (acked.bind .ret)
  refine ⟨_, _, run, ?_⟩
  by_contra gone
  have once : (["m1", "m1"] : List String).count "m1" = 1 := (ack_acts run _ List.mem_cons_self).mp gone
  simp at once

end Relay.Relayctl
