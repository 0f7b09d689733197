import Relay.Effect.Prog
import Mathlib.Logic.Relation

/-!
Programs that share one world, interleaved call by call or run one at a time.

A `Pool` holds any number of running programs. One step lets one program make
one call, starts a program, ends one that has returned, drops one at any point
(a crash), or lets the environment move the world. `Sound` says every running
program still meets its `Keeps` obligation; a step preserves it, so a property
of all interleavings is proved one program at a time.

`Exec` is one program run from start to end with the environment moving only
between its calls: the semantics for programs that never overlap.
-/

namespace Relay.Effect

open Relation

variable {World Call : Type} {Ans : Call → Type} {α : Type} {Label : Type}

/-- The programs running now, each with a label, and the results of those that
have returned. -/
structure Pool (World Label : Type) {Call : Type} (Ans : Call → Type) (α : Type) where
  world : World
  running : List (Label × Prog Ans α)
  finished : List (Label × α)

namespace Pool

/-- One step of a pool whose calls are answered by `answers`, whose environment
moves by `env` and which may start any program that `starts` allows. -/
inductive Step (answers : (request : Call) → World → Ans request → World → Prop)
    (env : World → World → Prop) (starts : Label → Prog Ans α → Prop) : Pool World Label Ans α → Pool World Label Ans α → Prop where
  | environment {s : Pool World Label Ans α} {w : World} : env s.world w →
      Step answers env starts s { s with world := w }
  | start {s : Pool World Label Ans α} {label : Label} {program : Prog Ans α} :
      starts label program →
      Step answers env starts s { s with running := (label, program) :: s.running }
  | answer {w w₁ : World} {before after : List (Label × Prog Ans α)} {finished : List (Label × α)}
      {label : Label} {request : Call} {next : Ans request → Prog Ans α} {reply : Ans request} :
      answers request w reply w₁ →
      Step answers env starts ⟨w, before ++ (label, .call request next) :: after, finished⟩
        ⟨w₁, before ++ (label, next reply) :: after, finished⟩
  | finish {w : World} {before after : List (Label × Prog Ans α)} {finished : List (Label × α)}
      {label : Label} {value : α} :
      Step answers env starts ⟨w, before ++ (label, .ret value) :: after, finished⟩
        ⟨w, before ++ after, (label, value) :: finished⟩
  | crash {w : World} {before after : List (Label × Prog Ans α)} {finished : List (Label × α)}
      {label : Label} {program : Prog Ans α} :
      Step answers env starts ⟨w, before ++ (label, program) :: after, finished⟩
        ⟨w, before ++ after, finished⟩

/-- Any number of steps. -/
abbrev Reaches (answers : (request : Call) → World → Ans request → World → Prop)
    (env : World → World → Prop) (starts : Label → Prog Ans α → Prop) :
    Pool World Label Ans α → Pool World Label Ans α → Prop :=
  ReflTransGen (Step answers env starts)

/-- No program running, none finished. -/
def idle (w : World) : Pool World Label Ans α := ⟨w, [], []⟩

/-- The invariant holds, every running program meets its obligation from here
on, and every result satisfies its postcondition now. -/
structure Sound (C : Contract World Ans) (post : Label → α → World → Prop)
    (s : Pool World Label Ans α) : Prop where
  inv : C.inv s.world
  running : ∀ entry ∈ s.running, Keeps C (post entry.1) entry.2 s.world
  finished : ∀ entry ∈ s.finished, post entry.1 entry.2 s.world

theorem sound_idle {C : Contract World Ans} {post : Label → α → World → Prop} {w : World}
    (holds : C.inv w) : Sound C post (idle w : Pool World Label Ans α) :=
  ⟨holds, by simp [idle], by simp [idle]⟩

section Soundness

variable {C : Contract World Ans} {env : World → World → Prop}
  {starts : Label → Prog Ans α → Prop} {post : Label → α → World → Prop}

/-- Moving the world along `rely` keeps every obligation of a sound pool. -/
theorem Sound.move
    (stays : ∀ label value w w₁, C.rely w w₁ → C.inv w₁ → post label value w → post label value w₁)
    {w w₁ : World} {running : List (Label × Prog Ans α)} {finished : List (Label × α)}
    (sound : Sound C post ⟨w, running, finished⟩) (moved : C.rely w w₁) (inv₁ : C.inv w₁) :
    Sound C post ⟨w₁, running, finished⟩ where
  inv := inv₁
  running := fun entry mem => (sound.running entry mem).stable (stays entry.1) moved inv₁
  finished := fun entry mem => stays _ _ _ _ moved inv₁ (sound.finished entry mem)

/-- One step keeps a pool sound: the environment and every program move the
world along `rely`, and a program is started only when it meets its obligation. -/
theorem Sound.step
    (stays : ∀ label value w w₁, C.rely w w₁ → C.inv w₁ → post label value w → post label value w₁)
    (environment : ∀ w w₁, C.inv w → env w w₁ → C.inv w₁ ∧ C.rely w w₁)
    (guarantee : ∀ w w₁, C.guar w w₁ → C.rely w w₁)
    (started : ∀ label program w, starts label program → C.inv w → Keeps C (post label) program w)
    {s t : Pool World Label Ans α} (sound : Sound C post s) (step : Step C.answers env starts s t) :
    Sound C post t := by
  cases step with
  | environment moved =>
      obtain ⟨inv₁, rely⟩ := environment _ _ sound.inv moved
      exact sound.move stays rely inv₁
  | start allowed =>
      refine ⟨sound.inv, fun entry mem => ?_, sound.finished⟩
      rcases List.mem_cons.mp mem with rfl | mem
      · exact started _ _ _ allowed sound.inv
      · exact sound.running entry mem
  | @answer w w₁ before after finished label request next reply answered =>
      -- The caller's own obligation is the one it had after this answer.
      have here := sound.running (label, .call request next) (by simp)
      obtain ⟨inv₁, guar, rest⟩ :=
        here w (C.rely_refl w) sound.inv reply w₁ answered
      have moved := sound.move stays (guarantee _ _ guar) inv₁
      refine ⟨inv₁, fun entry mem => ?_, moved.finished⟩
      rcases List.mem_append.mp mem with mem | mem
      · exact moved.running entry (List.mem_append_left _ mem)
      · rcases List.mem_cons.mp mem with rfl | mem
        · exact rest
        · exact moved.running entry (List.mem_append_right _ (List.mem_cons_of_mem _ mem))
  | @finish w before after finished label value =>
      refine ⟨sound.inv, fun entry mem => sound.running entry ?_, fun entry mem => ?_⟩
      · rcases List.mem_append.mp mem with mem | mem
        · exact List.mem_append_left _ mem
        · exact List.mem_append_right _ (List.mem_cons_of_mem _ mem)
      · rcases List.mem_cons.mp mem with rfl | mem
        · exact sound.running (label, .ret value) (by simp)
        · exact sound.finished entry mem
  | @crash w before after finished label program =>
      refine ⟨sound.inv, fun entry mem => sound.running entry ?_, sound.finished⟩
      rcases List.mem_append.mp mem with mem | mem
      · exact List.mem_append_left _ mem
      · exact List.mem_append_right _ (List.mem_cons_of_mem _ mem)

/-- Every pool reached from a sound one is sound. -/
theorem Sound.reaches
    (stays : ∀ label value w w₁, C.rely w w₁ → C.inv w₁ → post label value w → post label value w₁)
    (environment : ∀ w w₁, C.inv w → env w w₁ → C.inv w₁ ∧ C.rely w w₁)
    (guarantee : ∀ w w₁, C.guar w w₁ → C.rely w w₁)
    (started : ∀ label program w, starts label program → C.inv w → Keeps C (post label) program w)
    {s t : Pool World Label Ans α} (sound : Sound C post s) (steps : Reaches C.answers env starts s t) :
    Sound C post t := by
  induction steps with
  | refl => exact sound
  | tail _ step ih => exact ih.step stays environment guarantee started step

/-- One step of a sound pool moves the world along `rely`. -/
theorem Sound.step_rely (environment : ∀ w w₁, C.inv w → env w w₁ → C.inv w₁ ∧ C.rely w w₁)
    (guarantee : ∀ w w₁, C.guar w w₁ → C.rely w w₁) {s t : Pool World Label Ans α}
    (sound : Sound C post s) (step : Step C.answers env starts s t) : C.rely s.world t.world := by
  cases step with
  | environment moved => exact (environment _ _ sound.inv moved).2
  | start _ => exact C.rely_refl _
  | @answer w w₁ before after finished label request next reply answered =>
      have here := sound.running (label, .call request next) (by simp)
      exact guarantee _ _ (here w (C.rely_refl w) sound.inv reply w₁ answered).2.1
  | finish => exact C.rely_refl _
  | crash => exact C.rely_refl _

/-- A run from a sound pool moves the world along `rely`. -/
theorem Sound.reaches_rely
    (stays : ∀ label value w w₁, C.rely w w₁ → C.inv w₁ → post label value w → post label value w₁)
    (environment : ∀ w w₁, C.inv w → env w w₁ → C.inv w₁ ∧ C.rely w w₁)
    (guarantee : ∀ w w₁, C.guar w w₁ → C.rely w w₁)
    (started : ∀ label program w, starts label program → C.inv w → Keeps C (post label) program w)
    {s t : Pool World Label Ans α} (sound : Sound C post s)
    (steps : Reaches C.answers env starts s t) : C.rely s.world t.world := by
  induction steps with
  | refl => exact C.rely_refl _
  | tail before step ih =>
      have there := sound.reaches stays environment guarantee started before
      exact C.rely_trans ih (there.step_rely environment guarantee step)

end Soundness

end Pool

/-- One run of a program to its end, alone in the world except for the
environment. -/
inductive Exec (answers : (request : Call) → World → Ans request → World → Prop)
    (env : World → World → Prop) : Prog Ans α → World → α → World → Prop where
  | ret {value : α} {w : World} : Exec answers env (.ret value) w value w
  | call {request : Call} {next : Ans request → Prog Ans α} {w w₁ w₂ w₃ : World}
      {reply : Ans request} {value : α} :
      ReflTransGen env w w₁ → answers request w₁ reply w₂ →
      Exec answers env (next reply) w₂ value w₃ → Exec answers env (.call request next) w value w₃

/-- A run is one in every wider environment. -/
theorem Exec.weaken {answers : (request : Call) → World → Ans request → World → Prop}
    {env env' : World → World → Prop} (wider : ∀ w w', env w w' → env' w w') {program : Prog Ans α}
    {w w₁ : World} {value : α} (run : Exec answers env program w value w₁) :
    Exec answers env' program w value w₁ := by
  induction run with
  | ret => exact .ret
  | call moves answered _ ih => exact .call (ReflTransGen.mono wider _ _ moves) answered ih

/-- A run of a sequence is a run of its first part, and then of the rest. -/
theorem Exec.of_bind {answers : (request : Call) → World → Ans request → World → Prop}
    {env : World → World → Prop} {β : Type} {program : Prog Ans β} {next : β → Prog Ans α}
    {w w₁ : World} {value : α} (run : Exec answers env (program >>= next) w value w₁) :
    ∃ first w₀, Exec answers env program w first w₀ ∧ Exec answers env (next first) w₀ value w₁ := by
  induction program generalizing w with
  | ret first => exact ⟨first, w, .ret, run⟩
  | call request rest ih =>
      rw [Prog.call_bind] at run
      cases run with
      | call moves answered run =>
          obtain ⟨first, w₀, before, after⟩ := ih _ run
          exact ⟨first, w₀, .call moves answered before, after⟩

theorem Exec.bind {answers : (request : Call) → World → Ans request → World → Prop}
    {env : World → World → Prop} {program : Prog Ans β} {next : β → Prog Ans α} {w w₁ w₂ : World}
    {value : β} {result : α} (start : Exec answers env program w value w₁)
    (rest : Exec answers env (next value) w₁ result w₂) :
    Exec answers env (program >>= next) w result w₂ := by
  induction start with
  | ret => exact rest
  | call moves answered _ ih => exact .call moves answered (ih rest)

theorem Exec.of_ret {answers : (request : Call) → World → Ans request → World → Prop}
    {env : World → World → Prop} {returned value : α} {w w₁ : World}
    (run : Exec answers env (.ret returned) w value w₁) : value = returned ∧ w₁ = w := by
  cases run
  exact ⟨rfl, rfl⟩

/-- A run of a call and the rest of the program. -/
theorem Exec.of_perform_bind {answers : (request : Call) → World → Ans request → World → Prop}
    {env : World → World → Prop} {request : Call} {next : Ans request → Prog Ans α} {w w₃ : World}
    {value : α} (run : Exec answers env (Prog.perform request >>= next) w value w₃) :
    ∃ w₁ reply w₂, ReflTransGen env w w₁ ∧ answers request w₁ reply w₂ ∧
      Exec answers env (next reply) w₂ value w₃ := by
  cases run with
  | call moves answered rest => exact ⟨_, _, _, moves, answered, rest⟩

/-- A program that meets its obligation ends in its postcondition. -/
theorem Keeps.exec {C : Contract World Ans} {env : World → World → Prop}
    {post : α → World → Prop} {program : Prog Ans α} {w w₁ : World} {value : α}
    (environment : ∀ w w₁, C.inv w → env w w₁ → C.inv w₁ ∧ C.rely w w₁)
    (holds : C.inv w) (keeps : Keeps C post program w) (run : Exec C.answers env program w value w₁) :
    C.inv w₁ ∧ post value w₁ := by
  induction run with
  | ret => exact ⟨holds, keeps⟩
  | call moves answered _ ih =>
      have moved := relyStar environment holds moves
      obtain ⟨inv₂, _, rest⟩ := keeps _ moved.2 moved.1 _ _ answered
      exact ih inv₂ rest
where
  relyStar {C : Contract World Ans} {env : World → World → Prop}
      (environment : ∀ w w₁, C.inv w → env w w₁ → C.inv w₁ ∧ C.rely w w₁) {w w₁ : World}
      (holds : C.inv w) (moves : ReflTransGen env w w₁) : C.inv w₁ ∧ C.rely w w₁ := by
    induction moves with
    | refl => exact ⟨holds, C.rely_refl w⟩
    | tail _ move ih =>
        obtain ⟨inv₁, rely⟩ := environment _ _ ih.1 move
        exact ⟨inv₁, C.rely_trans ih.2 rely⟩

namespace Pool

section Sequential

variable {answers : (request : Call) → World → Ans request → World → Prop}
  {env : World → World → Prop} {starts : Label → Prog Ans α → Prop}

theorem reaches_env {w w₁ : World} (moves : ReflTransGen env w w₁)
    (running : List (Label × Prog Ans α)) (finished : List (Label × α)) :
    Reaches answers env starts ⟨w, running, finished⟩ ⟨w₁, running, finished⟩ := by
  induction moves with
  | refl => exact .refl
  | tail _ move ih => exact ih.tail (.environment move)

theorem reaches_running {program : Prog Ans α} {w w₁ : World} {value : α}
    (run : Exec answers env program w value w₁) (label : Label)
    (running : List (Label × Prog Ans α)) (finished : List (Label × α)) :
    Reaches answers env starts ⟨w, (label, program) :: running, finished⟩
      ⟨w₁, running, (label, value) :: finished⟩ := by
  induction run with
  | @ret value w =>
      have step : Step answers env starts ⟨w, [] ++ (label, .ret value) :: running, finished⟩
          ⟨w, [] ++ running, (label, value) :: finished⟩ := .finish
      exact .single step
  | @call request next w w₁ w₂ w₃ reply value moves answered _ ih =>
      have step : Step answers env starts ⟨w₁, [] ++ (label, .call request next) :: running, finished⟩
          ⟨w₂, [] ++ (label, next reply) :: running, finished⟩ := .answer answered
      exact (reaches_env moves _ _).trans (.head step ih)

/-- What moves the world beside a program may be other programs of the pool. -/
theorem reaches_beside {env' : World → World → Prop}
    (others : ∀ w w', env' w w' → ∀ running finished, ∃ more,
      Reaches answers env starts ⟨w, running, finished⟩ ⟨w', running, more ++ finished⟩)
    {program : Prog Ans α} {w w₁ : World} {value : α} (run : Exec answers env' program w value w₁)
    (label : Label) (running : List (Label × Prog Ans α)) (finished : List (Label × α)) :
    ∃ more, Reaches answers env starts ⟨w, (label, program) :: running, finished⟩
      ⟨w₁, running, (label, value) :: (more ++ finished)⟩ := by
  have along : ∀ {w w' : World}, ReflTransGen env' w w' → ∀ running finished, ∃ more,
      Reaches answers env starts ⟨w, running, finished⟩ ⟨w', running, more ++ finished⟩ := by
    intro w w' moves running finished
    induction moves with
    | refl => exact ⟨[], .refl⟩
    | tail _ move ih =>
        obtain ⟨more, before⟩ := ih
        obtain ⟨more', after⟩ := others _ _ move running (more ++ finished)
        exact ⟨more' ++ more, by rw [List.append_assoc]; exact before.trans after⟩
  induction run generalizing finished with
  | @ret value w =>
      have step : Step answers env starts ⟨w, [] ++ (label, .ret value) :: running, finished⟩
          ⟨w, [] ++ running, (label, value) :: finished⟩ := .finish
      exact ⟨[], .single step⟩
  | @call request next w w₁ w₂ w₃ reply value moves answered _ ih =>
      obtain ⟨more, before⟩ := along moves ((label, .call request next) :: running) finished
      have step : Step answers env starts ⟨w₁, [] ++ (label, .call request next) :: running, more ++ finished⟩
          ⟨w₂, [] ++ (label, next reply) :: running, more ++ finished⟩ := .answer answered
      obtain ⟨more', after⟩ := ih (more ++ finished)
      refine ⟨more' ++ more, ?_⟩
      rw [List.append_assoc]
      exact before.trans (.head step after)

/-- A program that runs alone is one of the ways a pool may go. -/
theorem reaches_exec {program : Prog Ans α} {w w₁ : World} {value : α} {label : Label}
    (allowed : starts label program) (run : Exec answers env program w value w₁)
    (running : List (Label × Prog Ans α)) (finished : List (Label × α)) :
    Reaches answers env starts ⟨w, running, finished⟩ ⟨w₁, running, (label, value) :: finished⟩ :=
  .head (.start allowed) (reaches_running run label running finished)

end Sequential

end Pool

end Relay.Effect
