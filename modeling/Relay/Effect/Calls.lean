import Relay.Effect.Trace

/-!
The calls that a program may make.

`Calls allowed p` says that every call of `p` is allowed, whatever the answers to
the calls before it are. Where every allowed call keeps the invariant, so does the
program (`Calls.keeps`): the rule for programs whose results do not matter.
-/

namespace Relay.Effect

variable {World Call : Type} {Ans : Call → Type} {α β : Type}

def Calls (allowed : Call → Prop) : Prog Ans α → Prop
  | .ret _ => True
  | .call request next => allowed request ∧ ∀ answer, Calls allowed (next answer)

/-- A program whose calls carry a label. -/
def Prog.tag {Label : Type} (label : Label) :
    Prog Ans α → Prog (fun call : Label × Call => Ans call.2) α
  | .ret value => .ret value
  | .call request next => .call (label, request) fun answer => (next answer).tag label

namespace Calls

variable {allowed : Call → Prop}

theorem ret (value : α) : Calls allowed (.ret value : Prog Ans α) := trivial

theorem bind {program : Prog Ans β} {next : β → Prog Ans α} (first : Calls allowed program)
    (rest : ∀ value, Calls allowed (next value)) : Calls allowed (program >>= next) := by
  induction program with
  | ret value => exact rest value
  | call request others ih =>
      rw [Prog.call_bind]
      exact ⟨first.1, fun answer => ih answer (first.2 answer)⟩

theorem perform_bind {request : Call} {next : Ans request → Prog Ans α} (may : allowed request)
    (rest : ∀ answer, Calls allowed (next answer)) : Calls allowed (Prog.perform request >>= next) :=
  ⟨may, rest⟩

theorem any (program : Prog Ans α) : Calls (fun _ => True) program := by
  induction program with
  | ret value => trivial
  | call request next ih => exact ⟨trivial, ih⟩

theorem mono {wider : Call → Prop} (weaker : ∀ request, allowed request → wider request)
    {program : Prog Ans α} (calls : Calls allowed program) : Calls wider program := by
  induction program with
  | ret value => trivial
  | call request next ih => exact ⟨weaker request calls.1, fun answer => ih answer (calls.2 answer)⟩

/-- The calls of a run are allowed. -/
theorem exchanges {answers : (request : Call) → World → Ans request → World → Prop}
    {env : World → World → Prop} {program : Prog Ans α} {w w₁ : World} {made : List (Exchange Ans)}
    {value : α} (calls : Calls allowed program) (run : Traced answers env program w made value w₁) :
    ∀ exchange ∈ made, allowed exchange.1 := by
  induction run with
  | ret => simp
  | call _ _ _ ih =>
      intro exchange mem
      rcases List.mem_cons.mp mem with rfl | mem
      · exact calls.1
      · exact ih (calls.2 _) exchange mem

/-- What the allowed calls and the environment keep, a run keeps. -/
theorem invariant {inv : World → Prop}
    {answers : (request : Call) → World → Ans request → World → Prop} {env : World → World → Prop}
    (step : ∀ request w reply w₁, allowed request → answers request w reply w₁ → inv w → inv w₁)
    (moves : ∀ w w₁, env w w₁ → inv w → inv w₁) {program : Prog Ans α} {w w₁ : World} {value : α}
    (calls : Calls allowed program) (run : Exec answers env program w value w₁) (start : inv w) :
    inv w₁ := by
  induction run with
  | ret => exact start
  | call moved answered _ ih =>
      refine ih (calls.2 _) (step _ _ _ _ calls.1 answered ?_)
      clear answered
      induction moved with
      | refl => exact start
      | tail _ move before => exact moves _ _ move before

theorem tag {Label : Type} {label : Label} {labelled : Label × Call → Prop} {program : Prog Ans α}
    (calls : Calls (fun request => labelled (label, request)) program) :
    Calls labelled (program.tag label) := by
  induction program with
  | ret value => trivial
  | call request next ih => exact ⟨calls.1, fun answer => ih answer (calls.2 answer)⟩

end Calls

/-- Whatever the answers are, a program that returns does so with a value of `post`. -/
def Returns (post : α → Prop) : Prog Ans α → Prop
  | .ret value => post value
  | .call _ next => ∀ answer, Returns post (next answer)

namespace Returns

variable {post : α → Prop}

theorem any (program : Prog Ans α) : Returns (fun _ => True) program := by
  induction program with
  | ret value => trivial
  | call request next ih => exact ih

theorem perform_bind {request : Call} {next : Ans request → Prog Ans α}
    (rest : ∀ answer, Returns post (next answer)) : Returns post (Prog.perform request >>= next) :=
  rest

theorem bind {first : β → Prop} {program : Prog Ans β} {next : β → Prog Ans α}
    (start : Returns first program) (rest : ∀ value, first value → Returns post (next value)) :
    Returns post (program >>= next) := by
  induction program with
  | ret value => exact rest value start
  | call request others ih =>
      rw [Prog.call_bind]
      exact fun answer => ih answer (start answer)

theorem exec {answers : (request : Call) → World → Ans request → World → Prop}
    {env : World → World → Prop} {program : Prog Ans α} {w w₁ : World} {value : α}
    (ends : Returns post program) (run : Exec answers env program w value w₁) : post value := by
  induction run with
  | ret => exact ends
  | call _ _ _ ih => exact ih (ends _)

end Returns

namespace Calls

variable {allowed : Call → Prop}

/-- A program keeps what each of its calls keeps, in every world that it may find,
and returns what it returns in any. -/
theorem keeps_returns {C : Contract World Ans} (guarantee : ∀ w w₁, C.guar w w₁ → C.rely w w₁)
    {post : α → Prop} {program : Prog Ans α} {w₀ : World} (calls : Calls allowed program)
    (ends : Returns post program)
    (step : ∀ w₁ request answer w₂, C.rely w₀ w₁ → C.inv w₁ → allowed request →
      C.answers request w₁ answer w₂ → C.inv w₂ ∧ C.guar w₁ w₂) :
    Keeps C (fun value _ => post value) program w₀ := by
  suffices later : ∀ w, C.rely w₀ w → Keeps C (fun value _ => post value) program w from
    later w₀ (C.rely_refl w₀)
  induction program with
  | ret value => exact fun _ _ => ends
  | call request next ih =>
      intro w before w₁ moved inv₁ answer w₂ answered
      have reached := C.rely_trans before moved
      obtain ⟨inv₂, guar⟩ := step w₁ request answer w₂ reached inv₁ calls.1 answered
      have after := C.rely_trans reached (guarantee w₁ w₂ guar)
      exact ⟨inv₂, guar, ih answer (calls.2 answer) (ends answer) w₂ after⟩

theorem keeps {C : Contract World Ans} (guarantee : ∀ w w₁, C.guar w w₁ → C.rely w w₁)
    {program : Prog Ans α} {w₀ : World} (calls : Calls allowed program)
    (step : ∀ w₁ request answer w₂, C.rely w₀ w₁ → C.inv w₁ → allowed request →
      C.answers request w₁ answer w₂ → C.inv w₂ ∧ C.guar w₁ w₂) :
    Keeps C (fun _ _ => True) program w₀ :=
  calls.keeps_returns guarantee (Returns.any program) step

/-- The rest of a program may use what its first part returns. -/
theorem bind_returns {post : β → Prop} {program : Prog Ans β}
    {next : β → Prog Ans α} (first : Calls allowed program) (ends : Returns post program)
    (rest : ∀ value, post value → Calls allowed (next value)) : Calls allowed (program >>= next) := by
  induction program with
  | ret value => exact rest value ends
  | call request others ih =>
      rw [Prog.call_bind]
      exact ⟨first.1, fun answer => ih answer (first.2 answer) (ends answer)⟩

end Calls

end Relay.Effect
