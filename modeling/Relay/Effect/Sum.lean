import Relay.Effect.Lockstep

/-!
Programs over two interfaces.

A program over one of two interfaces is one over both (`Prog.inl`, `Prog.inr`). The
left one is proved against a contract on a view of the world, and keeps what the
other contract adds where its calls do (`Keeps.ofLeft`). The right one is known by its
runs on a part of the world: what every run ends with, it ends with among the
others (`Keeps.ofRight`).
-/

namespace Relay.Effect

open Relation

variable {World World' Call Call' : Type} {Ans : Call → Type} {Ans' : Call' → Type} {α β : Type}

namespace Prog

/-- A program over the first of two interfaces. -/
def inl : Prog Ans α → Prog (Sum.elim Ans Ans') α
  | .ret value => .ret value
  | .call request next => .call (.inl request) fun answer => (next answer).inl

/-- A program over the second of two interfaces. -/
def inr : Prog Ans' α → Prog (Sum.elim Ans Ans') α
  | .ret value => .ret value
  | .call request next => .call (.inr request) fun answer => (next answer).inr

theorem bind_assoc {γ : Type} (program : Prog Ans β) (next : β → Prog Ans γ) (last : γ → Prog Ans α) :
    (program >>= next) >>= last = program >>= fun value => next value >>= last := by
  induction program with
  | ret value => rfl
  | call request rest ih =>
      rw [call_bind, call_bind, call_bind]
      exact congrArg _ (funext ih)

/-- A sequence over the first interface. -/
theorem inl_bind (program : Prog Ans β) (next : β → Prog Ans α) :
    (program >>= next).inl = (program.inl : Prog (Sum.elim Ans Ans') β) >>= fun value => (next value).inl := by
  induction program with
  | ret value => rfl
  | call request rest ih =>
      rw [call_bind, inl, inl, call_bind]
      exact congrArg _ (funext ih)

end Prog

namespace Keeps

variable {C : Contract World Ans} {D : Contract World' (Sum.elim Ans Ans')} {view : World' → World}
  {post : α → World → Prop}

/-- A program over the first interface meets a contract on the whole world if it meets one on a view
of it and its calls keep the rest. -/
theorem ofLeft {allowed : Call → Prop} (rely : ∀ v v', D.rely v v' → C.rely (view v) (view v'))
    (inv : ∀ v, D.inv v → C.inv (view v))
    (step : ∀ request v answer v', allowed request → D.inv v → D.answers (.inl request) v answer v' →
      C.answers request (view v) answer (view v') ∧
        (C.inv (view v') → C.guar (view v) (view v') → D.inv v' ∧ D.guar v v'))
    {program : Prog Ans α} (calls : Calls allowed program) {v : World'} (keeps : Keeps C post program (view v)) :
    Keeps D (fun value v' => post value (view v')) program.inl v := by
  induction program generalizing v with
  | ret value => exact keeps
  | call request next ih =>
      intro v₁ moved inv₁ answer v₂ answered
      obtain ⟨viewed, rest⟩ := step request v₁ answer v₂ calls.1 inv₁ answered
      obtain ⟨inv₂, guar, later⟩ := keeps (view v₁) (rely v v₁ moved) (inv v₁ inv₁) answer (view v₂) viewed
      obtain ⟨holds, moves⟩ := rest inv₂ guar
      exact ⟨holds, moves, ih answer (calls.2 answer) later⟩

/-- A program over the second interface that runs on a part of the world ends in what each of its
runs there ends in. -/
theorem ofRight {Part : Type} (part : World' → Part) (ends : α → Part → Prop)
    {answers : (request : Call') → Part → Ans' request → Part → Prop} {env : Part → Part → Prop}
    (rely : ∀ v v', D.rely v v' → ReflTransGen env (part v) (part v'))
    (step : ∀ request v answer v', D.inv v → D.answers (.inr request) v answer v' →
      answers request (part v) answer (part v') ∧ D.inv v' ∧ D.guar v v')
    {program : Prog Ans' α} {v : World'}
    (runs : ∀ calls value there, Traced answers env program (part v) calls value there → ends value there) :
    Keeps D (fun value v' => ends value (part v')) program.inr v := by
  induction program generalizing v with
  | ret value => exact runs [] value (part v) .ret
  | call request next ih =>
      intro v₁ moved inv₁ answer v₂ answered
      obtain ⟨there, inv₂, guar⟩ := step request v₁ answer v₂ inv₁ answered
      refine ⟨inv₂, guar, ih answer fun calls value last run => ?_⟩
      exact runs _ value last (.call (rely v v₁ moved) there run)

end Keeps

/-- A run on the part, alone, is one among the others. -/
theorem Exec.ofRight {Part : Type} {answers : (request : Call') → Part → Ans' request → Part → Prop}
    {answers' : (request : Call ⊕ Call') → World' → Sum.elim Ans Ans' request → World' → Prop}
    {env : World' → World' → Prop} (embed : Part → World')
    (step : ∀ request w reply w', answers request w reply w' → answers' (.inr request) (embed w) reply (embed w'))
    {program : Prog Ans' α} {w w' : Part} {value : α} (run : Exec answers Alone program w value w') :
    Exec answers' env program.inr (embed w) value (embed w') := by
  induction run with
  | ret => exact .ret
  | call moves answered _ ih =>
      obtain rfl := eq_of_alone moves
      exact .call .refl (step _ _ _ _ answered) ih

end Relay.Effect
