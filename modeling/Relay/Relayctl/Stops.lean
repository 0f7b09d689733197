import Mathlib.Algebra.Order.BigOperators.Group.Finset
import Relay.Effect.Pool
import Relay.Relayctl.Receipts

/-!
When the receive loop of `peek` ends.

A response holds a new message, or nothing, or only messages that were received
before. The guard of the loop counts the first two kinds and not the third, so the
receives are bounded if and only if the third kind is (`stops_bounded_iff`); where
it never ends, neither does the loop (`never_stops`).
-/

namespace Relay.Relayctl

open Relay.Platform Relay.Effect Relay.Sqs Relation

/-- What the receives return, one after another. -/
abbrev Responses := Nat → Except String (List Received)

/-- The world of one command is the number of its receives. -/
def Fed (s : Responses) : (request : Request) → Nat → request.Answer → Nat → Prop
  | .receiveMessage _ _, k, reply, k' => reply = s k ∧ k' = k + 1
  | _, _, _, _ => False

abbrev Feeds {α : Type} (s : Responses) (program : Act α) (k : Nat) (result : α) (n : Nat) : Prop :=
  Exec (Fed s) (fun _ _ => False) program k result n

/-- `peek` returns after `n` receives. -/
def Stops (limit : Nat) (s : Responses) (n : Nat) : Prop :=
  ∃ fuel result, Feeds s (peek fuel limit) 0 (some result) n

def batchAt (s : Responses) (k : Nat) : List Received :=
  match s k with
  | .ok batch => batch
  | .error _ => []

/-- The messages kept of the first responses. -/
def heldAfter (s : Responses) : Nat → List DeadLetter
  | 0 => []
  | k + 1 => collect (heldAfter s k) (batchAt s k)

/-- How many of the first responses were empty. -/
def emptyAfter (s : Responses) : Nat → Nat
  | 0 => 0
  | k + 1 => if batchAt s k = [] then emptyAfter s k + 1 else emptyAfter s k

/-- Response `k` holds messages, and each was in an earlier one. -/
def Repeats (s : Responses) (k : Nat) : Prop :=
  batchAt s k ≠ [] ∧ ∀ r ∈ batchAt s k, ∃ j < k, r.id ∈ (batchAt s j).map Received.id

instance (s : Responses) (k : Nat) : Decidable (Repeats s k) := by
  unfold Repeats
  infer_instance

/-- How many of the first responses only repeat messages. -/
def repeatsAfter (s : Responses) (n : Nat) : Nat := (List.range n).countP (Repeats s)

/-- The guard of the loop after `k` responses. -/
def Going (limit : Nat) (s : Responses) (k : Nat) : Prop :=
  (heldAfter s k).length < limit ∧ emptyAfter s k < 2

/-- The first `n` receives are made, and none of them fails. -/
def Receiving (limit : Nat) (s : Responses) (n : Nat) : Prop :=
  ∀ k < n, Going limit s k ∧ ∃ batch, s k = .ok batch

/-! ### What is kept -/

theorem mem_collect {out : List DeadLetter} {batch : List Received} {id : String} :
    id ∈ (collect out batch).map DeadLetter.messageId ↔
      id ∈ out.map DeadLetter.messageId ∨ id ∈ batch.map Received.id := by
  induction batch generalizing out with
  | nil => simp [collect]
  | cons r rest ih =>
      rw [collect, List.map_cons, List.mem_cons]
      split
      · rename_i known
        rw [ih]
        constructor
        · exact Or.imp_right .inr
        · rintro (mem | rfl | mem)
          · exact .inl mem
          · exact .inl known
          · exact .inr mem
      · rw [ih, List.map_append, List.mem_append, or_assoc]
        simp [toDeadLetter, Received.id]

theorem collect_nodup {out : List DeadLetter} {batch : List Received}
    (distinct : (out.map DeadLetter.messageId).Nodup) :
    ((collect out batch).map DeadLetter.messageId).Nodup := by
  induction batch generalizing out with
  | nil => exact distinct
  | cons r rest ih =>
      rw [collect]
      split
      · exact ih distinct
      · rename_i unknown
        refine ih ?_
        rw [List.map_append, List.nodup_append]
        refine ⟨distinct, by simp, ?_⟩
        rintro id mem id' here rfl
        rw [List.mem_singleton.mp here] at mem
        exact unknown mem

theorem length_collect (out : List DeadLetter) (batch : List Received) :
    out.length ≤ (collect out batch).length := by
  induction batch generalizing out with
  | nil => exact le_refl _
  | cons r rest ih =>
      rw [collect]
      split
      · exact ih out
      · refine le_trans ?_ (ih _)
        simp

/-- A batch with a new message adds to what is kept. -/
theorem length_lt_collect {out : List DeadLetter} {batch : List Received} {r : Received} (mem : r ∈ batch)
    (new : r.id ∉ out.map DeadLetter.messageId) : out.length < (collect out batch).length := by
  induction batch generalizing out with
  | nil => cases mem
  | cons first rest ih =>
      rw [collect]
      split
      · rename_i known
        rcases List.mem_cons.mp mem with rfl | mem
        · exact absurd known new
        · exact ih mem new
      · refine lt_of_lt_of_le ?_ (length_collect _ _)
        simp

theorem mem_heldAfter {s : Responses} {k : Nat} {id : String} :
    id ∈ (heldAfter s k).map DeadLetter.messageId ↔ ∃ j < k, id ∈ (batchAt s j).map Received.id := by
  induction k with
  | zero => simp [heldAfter]
  | succ k ih =>
      rw [heldAfter, mem_collect, ih]
      constructor
      · rintro (⟨j, before, mem⟩ | mem)
        · exact ⟨j, Nat.lt_succ_of_lt before, mem⟩
        · exact ⟨k, Nat.lt_succ_self k, mem⟩
      · rintro ⟨j, before, mem⟩
        rcases Nat.lt_succ_iff_lt_or_eq.mp before with before | rfl
        · exact .inl ⟨j, before, mem⟩
        · exact .inr mem

theorem heldAfter_nodup (s : Responses) (k : Nat) : ((heldAfter s k).map DeadLetter.messageId).Nodup := by
  induction k with
  | zero => exact .nil
  | succ k ih => exact collect_nodup ih

/-- No more is kept than there are messages. -/
theorem length_heldAfter {messages : Finset String} {s : Responses}
    (drawn : ∀ k, ∀ r ∈ batchAt s k, r.id ∈ messages) (k : Nat) :
    (heldAfter s k).length ≤ messages.card := by
  rw [← List.length_map DeadLetter.messageId, ← List.toFinset_card_of_nodup (heldAfter_nodup s k)]
  refine Finset.card_le_card fun id mem => ?_
  obtain ⟨j, -, here⟩ := mem_heldAfter.mp (List.mem_toFinset.mp mem)
  obtain ⟨r, received, rfl⟩ := List.mem_map.mp here
  exact drawn j r received

/-! ### Counting the receives -/

theorem repeatsAfter_succ (s : Responses) (k : Nat) :
    repeatsAfter s (k + 1) = repeatsAfter s k + if Repeats s k then 1 else 0 := by
  simp [repeatsAfter, List.range_succ, List.countP_append, List.countP_singleton]

/-- Every response is empty, repeats messages, or adds to what is kept. -/
theorem receives_le (s : Responses) (n : Nat) :
    n ≤ (heldAfter s n).length + emptyAfter s n + repeatsAfter s n := by
  induction n with
  | zero => exact Nat.zero_le _
  | succ k ih =>
      rw [heldAfter, emptyAfter, repeatsAfter_succ]
      have kept := length_collect (heldAfter s k) (batchAt s k)
      by_cases empty : batchAt s k = []
      · rw [if_pos empty]
        omega
      · rw [if_neg empty]
        by_cases repeats : Repeats s k
        · rw [if_pos repeats]
          omega
        · rw [if_neg repeats]
          have new : ∃ r ∈ batchAt s k, r.id ∉ (heldAfter s k).map DeadLetter.messageId := by
            by_contra all
            push Not at all
            exact repeats ⟨empty, fun r mem => mem_heldAfter.mp (all r mem)⟩
          obtain ⟨r, mem, new⟩ := new
          have more := length_lt_collect mem new
          omega

theorem Receiving.emptyAfter_le {limit n : Nat} {s : Responses} (receiving : Receiving limit s n) :
    emptyAfter s n ≤ 2 := by
  cases n with
  | zero => exact Nat.zero_le _
  | succ k =>
      have guard := (receiving k (Nat.lt_succ_self k)).1.2
      rw [emptyAfter]
      split <;> omega

/-! ### The loop -/

section Loop

variable {limit : Nat} {s : Responses}

/-- The loop has returned once it no longer receives. -/
theorem feeds_of_not_receiving {j k : Nat} (receiving : Receiving limit s k)
    (ended : ¬ Receiving limit s (k + j)) : ∃ fuel result n, n ≤ k + j ∧
      Feeds s (peekLoop limit fuel (emptyAfter s k) (heldAfter s k)) k (some result) n := by
  induction j generalizing k with
  | zero => exact absurd receiving ended
  | succ j ih =>
      by_cases going : (heldAfter s k).length < limit ∧ emptyAfter s k < 2
      · cases response : s k with
        | error message =>
            refine ⟨1, (heldAfter s k, some ("receive from DLQ: " ++ message)), k + 1, by omega, ?_⟩
            rw [peekLoop, if_pos going]
            exact .call .refl ⟨response.symm, rfl⟩ .ret
        | ok batch =>
            have next : Receiving limit s (k + 1) := by
              intro i before
              rcases Nat.lt_succ_iff_lt_or_eq.mp before with before | rfl
              · exact receiving i before
              · exact ⟨going, batch, response⟩
            obtain ⟨fuel, result, n, le, run⟩ := ih next (by rwa [Nat.add_right_comm])
            refine ⟨fuel + 1, result, n, by omega, ?_⟩
            rw [peekLoop, if_pos going]
            refine .call .refl ⟨response.symm, rfl⟩ ?_
            have here : batchAt s k = batch := by rw [batchAt, response]
            rw [emptyAfter, heldAfter, here] at run
            cases batch with
            | nil => exact run
            | cons first rest => exact run
      · refine ⟨1, ((heldAfter s k).insertionSort fun a b => a.sentAt ≤ b.sentAt, none), k, by omega, ?_⟩
        rw [peekLoop, if_neg going]
        exact .ret

/-- The loop makes all the receives that its guard allows. -/
theorem le_of_feeds {fuel k n : Nat} {result : List DeadLetter × Option String}
    (run : Feeds s (peekLoop limit fuel (emptyAfter s k) (heldAfter s k)) k (some result) n) :
    k ≤ n ∧ ∀ m, Receiving limit s m → m ≤ n := by
  induction fuel generalizing k with
  | zero =>
      obtain ⟨done, -⟩ := Exec.of_ret run
      cases done
  | succ fuel ih =>
      rw [peekLoop] at run
      split at run
      · obtain ⟨k₁, reply, k₂, moves, ⟨response, rfl⟩, run⟩ := Exec.of_perform_bind run
        obtain rfl : k = k₁ := by
          clear run response
          induction moves with
          | refl => rfl
          | tail _ move _ => exact move.elim
        cases reply with
        | error message =>
            obtain ⟨-, rfl⟩ := Exec.of_ret run
            refine ⟨Nat.le_succ k, fun m receiving => ?_⟩
            by_contra more
            obtain ⟨-, batch, ok⟩ := receiving k (by omega)
            cases ok.symm.trans response.symm
        | ok batch =>
            have here : batchAt s k = batch := by rw [batchAt, ← response]
            have next : Feeds s (peekLoop limit fuel (emptyAfter s (k + 1)) (heldAfter s (k + 1)))
                (k + 1) (some result) n := by
              rw [emptyAfter, heldAfter, here]
              cases batch with
              | nil => exact run
              | cons first rest => exact run
            obtain ⟨le, all⟩ := ih next
            exact ⟨by omega, all⟩
      · rename_i stopped
        obtain ⟨-, rfl⟩ := Exec.of_ret run
        refine ⟨le_refl n, fun m receiving => ?_⟩
        by_contra more
        exact stopped (receiving n (by omega)).1

theorem stops_of_not_receiving {n : Nat} (ended : ¬ Receiving limit s n) : ∃ m ≤ n, Stops limit s m := by
  have start : Receiving limit s 0 := fun k before => absurd before (Nat.not_lt_zero k)
  obtain ⟨fuel, result, m, le, run⟩ := feeds_of_not_receiving (j := n) start (by rwa [Nat.zero_add])
  exact ⟨m, by omega, fuel, result, run⟩

theorem le_of_stops {m n : Nat} (stops : Stops limit s n) (receiving : Receiving limit s m) : m ≤ n := by
  obtain ⟨fuel, result, run⟩ := stops
  have loop : Feeds s (peekLoop limit fuel (emptyAfter s 0) (heldAfter s 0)) 0 (some result) n := run
  exact (le_of_feeds loop).2 m receiving

end Loop

/-- For any kind of response sequences, the receives are bounded by the limit and the
number of messages if and only if the responses that only repeat messages are. -/
theorem stops_bounded_iff (kind : Nat → Finset String → Responses → Prop)
    (drawn : ∀ limit messages s, kind limit messages s → ∀ k, ∀ r ∈ batchAt s k, r.id ∈ messages) :
    (∃ bound : Nat → Nat → Nat, ∀ limit messages s, kind limit messages s →
        ∃ n ≤ bound limit messages.card, Stops limit s n) ↔
      ∃ bound : Nat → Nat → Nat, ∀ limit messages s, kind limit messages s →
        ∀ n, Receiving limit s n → repeatsAfter s n ≤ bound limit messages.card := by
  constructor
  · rintro ⟨bound, stops⟩
    refine ⟨bound, fun limit messages s this n receiving => ?_⟩
    obtain ⟨m, le, ends⟩ := stops limit messages s this
    calc repeatsAfter s n ≤ (List.range n).length := List.countP_le_length
      _ = n := List.length_range
      _ ≤ m := le_of_stops ends receiving
      _ ≤ bound limit messages.card := le
  · rintro ⟨bound, few⟩
    refine ⟨fun limit count => count + 3 + bound limit count, fun limit messages s this => ?_⟩
    refine stops_of_not_receiving fun receiving => ?_
    dsimp only at receiving
    have total := receives_le s (messages.card + 3 + bound limit messages.card)
    have kept := length_heldAfter (drawn limit messages s this)
      (messages.card + 3 + bound limit messages.card)
    have empties := receiving.emptyAfter_le
    have repeats := few limit messages s this _ receiving
    omega

/-- Nothing but the messages is received, each in at most `count` of the responses. -/
structure Seldom (count : Nat) (messages : Finset String) (s : Responses) : Prop where
  drawn : ∀ k, ∀ r ∈ batchAt s k, r.id ∈ messages
  turns : ∀ id, ∃ turns : Finset Nat, turns.card ≤ count ∧
    ∀ k, id ∈ (batchAt s k).map Received.id → k ∈ turns

/-- A response that repeats messages uses up a turn of one of them. -/
theorem Seldom.repeatsAfter_le {count : Nat} {messages : Finset String} {s : Responses}
    (seldom : Seldom count messages s) (n : Nat) : repeatsAfter s n ≤ count * messages.card := by
  let repeats := (Finset.range n).filter fun k => Repeats s k
  let firstOf := fun k => ((batchAt s k).head?.map Received.id).getD ""
  have first : ∀ k ∈ repeats, firstOf k ∈ (batchAt s k).map Received.id := by
    intro k mem
    have some_ := (Finset.mem_filter.mp mem).2.1
    obtain ⟨r, rest, here⟩ := List.exists_cons_of_ne_nil some_
    simp [firstOf, here]
  have counted : repeatsAfter s n = repeats.card := List.countP_eq_length_filter
  rw [counted]
  refine Finset.card_le_mul_card_image_of_maps_to (f := firstOf) (t := messages) ?_ count ?_
  · intro k mem
    obtain ⟨r, received, same⟩ := List.mem_map.mp (first k mem)
    rw [← same]
    exact seldom.drawn k r received
  · intro id _
    obtain ⟨turns, few, all⟩ := seldom.turns id
    refine (Finset.card_le_card fun k mem => ?_).trans few
    obtain ⟨mem, same⟩ := Finset.mem_filter.mp mem
    exact all k (same ▸ first k mem)

/-- The first message is received, received again, and then another; after that nothing. -/
def twice : Responses
  | 0 => .ok [delivery 0]
  | 1 => .ok [delivery 1]
  | 2 => .ok [⟨{ parked with messageId := "m2" }, ⟨"m2", 0⟩, some 1⟩]
  | _ + 3 => .ok []

theorem seldom_twice : Seldom 2 {"m1", "m2"} twice where
  drawn k r mem := by
    match k with
    | 0 | 1 | 2 =>
      rw [List.mem_singleton.mp mem]
      decide
    | k + 3 => cases mem
  turns id := by
    by_cases first : id = "m1"
    · refine ⟨{0, 1}, le_rfl, fun k mem => ?_⟩
      match k with
      | 0 | 1 => decide
      | 2 => simp [batchAt, twice, Received.id, first] at mem
      | k + 3 => simp [batchAt, twice] at mem
    · refine ⟨{2}, by decide, fun k mem => ?_⟩
      match k with
      | 0 | 1 => exact absurd (List.mem_singleton.mp mem) first
      | 2 => decide
      | k + 3 => simp [batchAt, twice] at mem

/-- Where each message comes at most twice, the loop ends within a bound. -/
theorem stops_bounded_twice : Seldom 2 {"m1", "m2"} twice ∧ Repeats twice 1 ∧
    ∃ bound : Nat → Nat → Nat, ∀ limit messages s, Seldom 2 messages s →
      ∃ n ≤ bound limit messages.card, Stops limit s n := by
  refine ⟨seldom_twice, by decide, ?_⟩
  refine (stops_bounded_iff (fun _ => Seldom 2) fun _ _ _ seldom => seldom.drawn).mpr ⟨fun _ n => 2 * n, ?_⟩
  exact fun _ _ _ seldom n _ => seldom.repeatsAfter_le n

/-- The one message is delivered again and again, each time with a new receipt. -/
def redelivered : Responses := fun k => .ok [delivery k]

/-- Two messages are wanted and there is one: the loop never ends. -/
theorem never_stops : (∀ k, ∀ r ∈ batchAt redelivered k, r.id ∈ ({"m1"} : Finset String)) ∧
    ∀ n, ¬ Stops 2 redelivered n := by
  have drawn : ∀ k, ∀ r ∈ batchAt redelivered k, r.id ∈ ({"m1"} : Finset String) := by
    intro k r mem
    rw [List.mem_singleton.mp mem]
    exact Finset.mem_singleton_self _
  refine ⟨drawn, fun n stops => ?_⟩
  have receiving : Receiving 2 redelivered (n + 1) := by
    intro k _
    have none_ : emptyAfter redelivered k = 0 := by
      induction k with
      | zero => rfl
      | succ k ih =>
          rw [emptyAfter, if_neg (by simp [batchAt, redelivered])]
          exact ih (by omega)
    have kept := length_heldAfter drawn k
    rw [Finset.card_singleton] at kept
    exact ⟨⟨by omega, by omega⟩, _, rfl⟩
  have le := le_of_stops stops receiving
  omega

end Relay.Relayctl
