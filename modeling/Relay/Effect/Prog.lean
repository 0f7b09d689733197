import Mathlib.Logic.Basic

/-!
Programs over a typed interface of calls.

A `Prog` is a tree: it returns a value, or it makes one call and continues with
whatever its environment answers. A tree has no loop of its own, so a source
loop is a recursion that builds the tree, and a loop that need not stop takes
fuel. Nothing here fixes an interface or a world.

`Contract` fixes what one call may do to a shared world and what the other
programs may do between two calls. `Keeps` is the proof obligation a contract
puts on one program: every call it makes, from any world the others may have
moved to, keeps the invariant and stays within the guarantee. It is defined by
recursion on the tree, so a proof follows the program's own shape.
-/

namespace Relay.Effect

/-- A program that makes calls of `Call`, each answered at its own type. -/
inductive Prog {Call : Type} (Ans : Call → Type) (α : Type) : Type where
  | ret (value : α) : Prog Ans α
  | call (request : Call) (next : Ans request → Prog Ans α) : Prog Ans α

namespace Prog

variable {Call : Type} {Ans : Call → Type} {α β γ : Type}

protected def bind : Prog Ans α → (α → Prog Ans β) → Prog Ans β
  | .ret value, next => next value
  | .call request rest, next => .call request fun answer => (rest answer).bind next

instance : Monad (Prog Ans) where
  pure := .ret
  bind := Prog.bind

/-- One call, its answer returned. -/
def perform (request : Call) : Prog Ans (Ans request) := .call request .ret

@[simp] theorem ret_bind (value : α) (next : α → Prog Ans β) :
    (Prog.ret value : Prog Ans α) >>= next = next value := rfl

@[simp] theorem pure_bind_eq (value : α) (next : α → Prog Ans β) :
    (pure value : Prog Ans α) >>= next = next value := rfl

@[simp] theorem call_bind (request : Call) (rest : Ans request → Prog Ans α)
    (next : α → Prog Ans β) :
    Prog.call request rest >>= next = .call request fun answer => rest answer >>= next := rfl

@[simp] theorem perform_bind (request : Call) (next : Ans request → Prog Ans β) :
    perform request >>= next = .call request next := rfl

end Prog

/-- A fallible sequence that succeeds has succeeded in its first part. -/
theorem ok_of_bind {E α β : Type} {first : Except E α} {next : α → Except E β} {result : β}
    (done : first >>= next = .ok result) : ∃ value, first = .ok value ∧ next value = .ok result := by
  cases first with
  | error err => cases done
  | ok value => exact ⟨value, rfl, done⟩

/-- What a call may do to the shared world, what the rest of the system may do
to it between two calls (`rely`), what a program's own calls may do (`guar`),
and the invariant every call has to keep. -/
structure Contract (World : Type) {Call : Type} (Ans : Call → Type) where
  answers : (request : Call) → World → Ans request → World → Prop
  inv : World → Prop
  rely : World → World → Prop
  guar : World → World → Prop
  rely_refl : ∀ w, rely w w
  rely_trans : ∀ {u v w}, rely u v → rely v w → rely u w

variable {World Call : Type} {Ans : Call → Type} {α β : Type}

/-- `Keeps C post p w`: from `w` on, whatever the rest of the system does
between its calls, `p` keeps `C.inv`, moves the world only along `C.guar`, and
returns only in worlds that satisfy `post`. -/
def Keeps (C : Contract World Ans) (post : α → World → Prop) : Prog Ans α → World → Prop
  | .ret value, w => post value w
  | .call request next, w =>
      ∀ w₁, C.rely w w₁ → C.inv w₁ → ∀ answer w₂, C.answers request w₁ answer w₂ →
        C.inv w₂ ∧ C.guar w₁ w₂ ∧ Keeps C post (next answer) w₂

namespace Keeps

variable {C : Contract World Ans} {post : α → World → Prop}

@[simp] theorem ret_iff {value : α} {w : World} :
    Keeps C post (.ret value) w ↔ post value w := Iff.rfl

@[simp] theorem pure_iff {value : α} {w : World} :
    Keeps C post (pure value) w ↔ post value w := Iff.rfl

theorem call_iff {request : Call} {next : Ans request → Prog Ans α} {w : World} :
    Keeps C post (.call request next) w ↔
      ∀ w₁, C.rely w w₁ → C.inv w₁ → ∀ answer w₂, C.answers request w₁ answer w₂ →
        C.inv w₂ ∧ C.guar w₁ w₂ ∧ Keeps C post (next answer) w₂ := Iff.rfl

/-- The obligation of a sequence is the obligation of its first part, with the
rest as postcondition. -/
theorem bind_iff {program : Prog Ans β} {next : β → Prog Ans α} {w : World} :
    Keeps C post (program >>= next) w ↔
      Keeps C (fun value => Keeps C post (next value)) program w := by
  induction program generalizing w with
  | ret value => rfl
  | call request rest ih =>
      simp only [Prog.call_bind, call_iff]
      refine forall_congr' fun w₁ => ?_
      simp only [ih]

/-- A weaker postcondition, at least in the worlds that satisfy the invariant. -/
theorem mono {post' : α → World → Prop} (weaker : ∀ value w, C.inv w → post value w → post' value w)
    {program : Prog Ans α} {w : World} (holds : C.inv w) (keeps : Keeps C post program w) :
    Keeps C post' program w := by
  induction program generalizing w with
  | ret value => exact weaker value w holds keeps
  | call request next ih =>
      intro w₁ moved inv₁ answer w₂ answered
      obtain ⟨inv₂, guar, rest⟩ := keeps w₁ moved inv₁ answer w₂ answered
      exact ⟨inv₂, guar, ih answer inv₂ rest⟩

/-- The obligation survives whatever the rest of the system does, if the
postcondition does. -/
theorem stable
    (stays : ∀ value w w₁, C.rely w w₁ → C.inv w₁ → post value w → post value w₁)
    {program : Prog Ans α} {w w₁ : World} (moved : C.rely w w₁) (inv₁ : C.inv w₁)
    (keeps : Keeps C post program w) : Keeps C post program w₁ := by
  cases program with
  | ret value => exact stays value w w₁ moved inv₁ keeps
  | call request next =>
      intro w₂ moved₂ inv₂
      exact keeps w₂ (C.rely_trans moved moved₂) inv₂

/-- A program ends in a world that its own calls and the rest of the system may
have moved to from where it started. -/
theorem moved (guarantee : ∀ w w₁, C.guar w w₁ → C.rely w w₁) {program : Prog Ans α} {w : World}
    (keeps : Keeps C post program w) :
    Keeps C (fun value w₁ => post value w₁ ∧ C.rely w w₁) program w := by
  suffices from_ : ∀ w₀, C.rely w₀ w →
      Keeps C (fun value w₁ => post value w₁ ∧ C.rely w₀ w₁) program w from from_ w (C.rely_refl w)
  induction program generalizing w with
  | ret value => exact fun w₀ before => ⟨keeps, before⟩
  | call request next ih =>
      intro w₀ before w₁ moved inv₁ answer w₂ answered
      obtain ⟨inv₂, guar, rest⟩ := keeps w₁ moved inv₁ answer w₂ answered
      exact ⟨inv₂, guar, ih answer rest w₀
        (C.rely_trans before (C.rely_trans moved (guarantee _ _ guar)))⟩

/-- Rule for a program followed by another, which may use what the first one
established and that the world only moved along `rely`. -/
theorem sequence {first : β → World → Prop} (guarantee : ∀ w w₁, C.guar w w₁ → C.rely w w₁)
    {program : Prog Ans β} {next : β → Prog Ans α} {w : World} (holds : C.inv w)
    (start : Keeps C first program w)
    (rest : ∀ value w₁, C.inv w₁ → C.rely w w₁ → first value w₁ → Keeps C post (next value) w₁) :
    Keeps C post (program >>= next) w := by
  rw [bind_iff]
  refine mono (fun value w₁ inv₁ ends => ?_) holds (moved guarantee start)
  exact rest value w₁ inv₁ ends.2 ends.1

/-- Rule for a call followed by the rest of the program. -/
theorem perform_bind {request : Call} {next : Ans request → Prog Ans α} {w : World}
    (step : ∀ w₁, C.rely w w₁ → C.inv w₁ → ∀ answer w₂, C.answers request w₁ answer w₂ →
      C.inv w₂ ∧ C.guar w₁ w₂ ∧ Keeps C post (next answer) w₂) :
    Keeps C post (Prog.perform request >>= next) w := step

/-- Rule for a call that leaves the world as it found it. -/
theorem observe {request : Call} {next : Ans request → Prog Ans α} {w : World}
    (reads : ∀ w₁ answer w₂, C.answers request w₁ answer w₂ → w₂ = w₁)
    (guar_refl : ∀ w₁, C.guar w₁ w₁)
    (step : ∀ w₁, C.rely w w₁ → C.inv w₁ → ∀ answer, C.answers request w₁ answer w₁ →
      Keeps C post (next answer) w₁) :
    Keeps C post (Prog.perform request >>= next) w := by
  intro w₁ moved inv₁ answer w₂ answered
  obtain rfl := reads w₁ answer w₂ answered
  exact ⟨inv₁, guar_refl _, step _ moved inv₁ answer answered⟩

end Keeps

end Relay.Effect
