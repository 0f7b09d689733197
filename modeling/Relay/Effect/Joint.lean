import Relay.Effect.Pool

/-!
Two contracts at once.

A program that meets two contracts, each for its own reasons, meets both of them
together: the joint invariant is kept, and what the rest of the system does is
within both. So a system whose programs are proved against different contracts is
put together from those proofs, and each program needs only the other contract's
frame in addition.
-/

namespace Relay.Effect

variable {World Call : Type} {Ans : Call → Type} {α : Type}

/-- The contract `C` with the invariant and the moves of `D` on top. -/
def Contract.both (C D : Contract World Ans) : Contract World Ans where
  answers := C.answers
  inv w := C.inv w ∧ D.inv w
  rely w w' := C.rely w w' ∧ D.rely w w'
  guar w w' := C.guar w w' ∧ D.guar w w'
  rely_refl w := ⟨C.rely_refl w, D.rely_refl w⟩
  rely_trans first second := ⟨C.rely_trans first.1 second.1, D.rely_trans first.2 second.2⟩

/-- A program that meets two contracts over the same calls meets both at once. -/
theorem Keeps.both {C D : Contract World Ans} (same : D.answers = C.answers)
    {post post' : α → World → Prop} {program : Prog Ans α} {w : World}
    (keepsC : Keeps C post program w) (keepsD : Keeps D post' program w) :
    Keeps (C.both D) (fun value w => post value w ∧ post' value w) program w := by
  induction program generalizing w with
  | ret value => exact ⟨keepsC, keepsD⟩
  | call request next ih =>
      intro w₁ moved inv₁ answer w₂ answered
      have answered' : D.answers request w₁ answer w₂ := same ▸ answered
      obtain ⟨invC, guarC, restC⟩ := keepsC w₁ moved.1 inv₁.1 answer w₂ answered
      obtain ⟨invD, guarD, restD⟩ := keepsD w₁ moved.2 inv₁.2 answer w₂ answered'
      exact ⟨⟨invC, invD⟩, ⟨guarC, guarD⟩, ih answer restC restD⟩

end Relay.Effect
