import Relay.Effect.Pool

/-!
One program's run with the calls that it made.

`Traced` is `Exec` with the calls and their answers in order. It is for results
about what a program asks and what it is told, not only about where it ends. A
result about what a call did to the world needs the worlds around it as well:
that is `Exec` over a world which keeps a record.
-/

namespace Relay.Effect

open Relation

variable {World Call : Type} {Ans : Call → Type} {α β : Type}

/-- A call and its answer. -/
abbrev Exchange {Call : Type} (Ans : Call → Type) := (request : Call) × Ans request

inductive Traced (answers : (request : Call) → World → Ans request → World → Prop)
    (env : World → World → Prop) :
    Prog Ans α → World → List (Exchange Ans) → α → World → Prop where
  | ret {value : α} {w : World} : Traced answers env (.ret value) w [] value w
  | call {request : Call} {next : Ans request → Prog Ans α} {w w₁ w₂ w₃ : World}
      {reply : Ans request} {calls : List (Exchange Ans)} {value : α} :
      ReflTransGen env w w₁ → answers request w₁ reply w₂ →
      Traced answers env (next reply) w₂ calls value w₃ →
      Traced answers env (.call request next) w (⟨request, reply⟩ :: calls) value w₃

namespace Traced

variable {answers : (request : Call) → World → Ans request → World → Prop} {env : World → World → Prop}

theorem exec {program : Prog Ans α} {w w₁ : World} {calls : List (Exchange Ans)} {value : α}
    (run : Traced answers env program w calls value w₁) : Exec answers env program w value w₁ := by
  induction run with
  | ret => exact .ret
  | call moves answered _ ih => exact .call moves answered ih

theorem of_ret {returned value : α} {w w₁ : World} {calls : List (Exchange Ans)}
    (run : Traced answers env (.ret returned) w calls value w₁) :
    calls = [] ∧ value = returned ∧ w₁ = w := by
  cases run
  exact ⟨rfl, rfl, rfl⟩

theorem of_perform_bind {request : Call} {next : Ans request → Prog Ans α} {w w₃ : World}
    {calls : List (Exchange Ans)} {value : α}
    (run : Traced answers env (Prog.perform request >>= next) w calls value w₃) :
    ∃ w₁ reply w₂ later, calls = ⟨request, reply⟩ :: later ∧ ReflTransGen env w w₁ ∧
      answers request w₁ reply w₂ ∧ Traced answers env (next reply) w₂ later value w₃ := by
  cases run with
  | call moves answered rest => exact ⟨_, _, _, _, rfl, moves, answered, rest⟩

/-- The calls of a sequence are those of its first part, and then those of the rest. -/
theorem of_bind {program : Prog Ans β} {next : β → Prog Ans α} {w w₁ : World}
    {calls : List (Exchange Ans)} {value : α}
    (run : Traced answers env (program >>= next) w calls value w₁) :
    ∃ first w₀ before after, calls = before ++ after ∧
      Traced answers env program w before first w₀ ∧ Traced answers env (next first) w₀ after value w₁ := by
  induction program generalizing w calls with
  | ret first => exact ⟨first, w, [], calls, rfl, .ret, run⟩
  | call request rest ih =>
      rw [Prog.call_bind] at run
      cases run with
      | call moves answered run =>
          obtain ⟨first, w₀, before, after, rfl, start, others⟩ := ih _ run
          exact ⟨first, w₀, _, after, rfl, .call moves answered start, others⟩

theorem bind {program : Prog Ans β} {next : β → Prog Ans α} {w w₁ w₂ : World}
    {before after : List (Exchange Ans)} {value : β} {result : α}
    (start : Traced answers env program w before value w₁)
    (rest : Traced answers env (next value) w₁ after result w₂) :
    Traced answers env (program >>= next) w (before ++ after) result w₂ := by
  induction start with
  | ret => exact rest
  | call moves answered _ ih => exact .call moves answered (ih rest)

/-- A run in one world is one in every world that shows what its calls and its environment do. -/
theorem image {World' : Type} {answers' : (request : Call) → World' → Ans request → World' → Prop}
    {env' : World' → World' → Prop} (show_ : World → World')
    (step : ∀ request w reply w', answers request w reply w' → answers' request (show_ w) reply (show_ w'))
    (moved : ∀ w w', env w w' → env' (show_ w) (show_ w')) {program : Prog Ans α} {w w₁ : World}
    {calls : List (Exchange Ans)} {value : α} (run : Traced answers env program w calls value w₁) :
    Traced answers' env' program (show_ w) calls value (show_ w₁) := by
  induction run with
  | ret => exact .ret
  | call moves answered _ ih => exact .call (moves.lift show_ moved) (step _ _ _ _ answered) ih

/-- Where every call has an answer, a program has a run. -/
theorem exists_run (answered : ∀ (request : Call) (w : World), ∃ reply w₁, answers request w reply w₁)
    (program : Prog Ans α) (w : World) : ∃ calls value w₁, Traced answers env program w calls value w₁ := by
  induction program generalizing w with
  | ret value => exact ⟨[], value, w, .ret⟩
  | call request next ih =>
      obtain ⟨reply, w₁, answer⟩ := answered request w
      obtain ⟨calls, value, w₂, rest⟩ := ih reply w₁
      exact ⟨_, value, w₂, .call .refl answer rest⟩

end Traced

/-- Every run has its calls. -/
theorem Exec.traced {answers : (request : Call) → World → Ans request → World → Prop}
    {env : World → World → Prop} {program : Prog Ans α} {w w₁ : World} {value : α}
    (run : Exec answers env program w value w₁) :
    ∃ calls, Traced answers env program w calls value w₁ := by
  induction run with
  | ret => exact ⟨[], .ret⟩
  | call moves answered _ ih =>
      obtain ⟨calls, rest⟩ := ih
      exact ⟨_, .call moves answered rest⟩

/-! ### Records -/

/-- One call of a run, with its answer and the worlds around it. -/
structure Occurrence (World : Type) {Call : Type} (Ans : Call → Type) where
  before : World
  request : Call
  reply : Ans request
  after : World

/-- The same answers, each one recorded. -/
def Recorded (answers : (request : Call) → World → Ans request → World → Prop) (request : Call)
    (s : World × List (Occurrence World Ans)) (reply : Ans request)
    (s' : World × List (Occurrence World Ans)) : Prop :=
  answers request s.1 reply s'.1 ∧ s'.2 = s.2 ++ [⟨s.1, request, reply, s'.1⟩]

/-- What the environment does is not recorded. -/
def Unrecorded (env : World → World → Prop) (s s' : World × List (Occurrence World Ans)) : Prop :=
  env s.1 s'.1 ∧ s'.2 = s.2

/-- Every run can be recorded. -/
theorem Exec.recorded {answers : (request : Call) → World → Ans request → World → Prop}
    {env : World → World → Prop} {program : Prog Ans α} {w w₁ : World} {value : α}
    (run : Exec answers env program w value w₁) (past : List (Occurrence World Ans)) :
    ∃ past₁, Exec (Recorded answers) (Unrecorded env) program (w, past) value (w₁, past₁) := by
  induction run generalizing past with
  | ret => exact ⟨past, .ret⟩
  | @call request next _ w₁ w₂ _ reply _ moves answered _ ih =>
      obtain ⟨past₁, rest⟩ := ih (past ++ [⟨w₁, request, reply, w₂⟩])
      have moves : ReflTransGen (Unrecorded env) (_, past) (w₁, past) :=
        moves.lift (fun w => (w, past)) fun _ _ move => ⟨move, rfl⟩
      exact ⟨past₁, .call moves ⟨answered, rfl⟩ rest⟩

section Records

variable {answers : (request : Call) → World → Ans request → World → Prop} {env : World → World → Prop}
  {s s' : World × List (Occurrence World Ans)}

theorem unrecorded_moves (moves : ReflTransGen (Unrecorded env) s s') :
    ReflTransGen env s.1 s'.1 ∧ s'.2 = s.2 := by
  induction moves with
  | refl => exact ⟨.refl, rfl⟩
  | tail _ move ih => exact ⟨ih.1.tail move.1, move.2.trans ih.2⟩

/-- A run only adds to the record. -/
theorem Exec.record_grows {program : Prog Ans α} {value : α}
    (run : Exec (Recorded answers) (Unrecorded env) program s value s') :
    ∃ later, s'.2 = s.2 ++ later := by
  induction run with
  | ret => exact ⟨[], by rw [List.append_nil]⟩
  | call moves answered _ ih =>
      obtain ⟨later, rest⟩ := ih
      rw [answered.2, (unrecorded_moves moves).2, List.append_assoc] at rest
      exact ⟨_, rest⟩

/-- The first call of a recorded run is the first that it adds to the record. -/
theorem Exec.first_recorded {request : Call} {next : Ans request → Prog Ans α} {value : α}
    (run : Exec (Recorded answers) (Unrecorded env) (Prog.perform request >>= next) s value s') :
    ∃ before reply after, ReflTransGen env s.1 before ∧ answers request before reply after ∧
      Exec (Recorded answers) (Unrecorded env) (next reply)
        (after, s.2 ++ [⟨before, request, reply, after⟩]) value s' := by
  obtain ⟨⟨before, past⟩, reply, ⟨after, past'⟩, moves, ⟨answered, recorded⟩, rest⟩ :=
    Exec.of_perform_bind run
  obtain ⟨moved, rfl⟩ := unrecorded_moves moves
  obtain rfl : past' = s.2 ++ [⟨before, request, reply, after⟩] := recorded
  exact ⟨before, reply, after, moved, answered, rest⟩

end Records

end Relay.Effect
