import Relay.Effect.Calls

/-!
Two runs of one program.

Where the answers to its calls are determined by what two worlds have in common,
and leave it in common, a program that nobody interrupts makes the same calls in
both and returns the same value (`Traced.lockstep`). `Traced.along` is the rule
for one run: it moves the world along whatever each of its calls does.
-/

namespace Relay.Effect

open Relation

variable {World Call : Type} {Ans : Call → Type} {α : Type}
  {answers answers' : (request : Call) → World → Ans request → World → Prop}
  {env : World → World → Prop} {allowed : Call → Prop}

/-- Nothing else moves the world. -/
def Alone : World → World → Prop := fun _ _ => False

theorem eq_of_alone {w w' : World} (moves : ReflTransGen Alone w w') : w' = w := by
  induction moves with
  | refl => rfl
  | tail _ move _ => cases move

namespace Traced

/-- A run under answers that allow more. -/
theorem mono (weaker : ∀ request w reply w', answers request w reply w' → answers' request w reply w')
    {program : Prog Ans α} {w w' : World} {calls : List (Exchange Ans)} {value : α}
    (run : Traced answers env program w calls value w') : Traced answers' env program w calls value w' := by
  induction run with
  | ret => exact .ret
  | call moves answered _ ih => exact .call moves (weaker _ _ _ _ answered) ih

/-- A run moves the world along what the environment and each allowed call do. -/
theorem along (moved : World → World → Prop) (refl : ∀ w, moved w w)
    (trans : ∀ {u v w}, moved u v → moved v w → moved u w) (others : ∀ w w', env w w' → moved w w')
    (step : ∀ request w reply w', allowed request → answers request w reply w' → moved w w')
    {program : Prog Ans α} (calls : Calls allowed program) {w w' : World}
    {made : List (Exchange Ans)} {value : α} (run : Traced answers env program w made value w') :
    moved w w' := by
  induction run with
  | ret => exact refl _
  | @call request next w w₁ w₂ w₃ reply made value moves answered _ ih =>
      have before : moved w w₁ := by
        clear answered ih
        induction moves with
        | refl => exact refl _
        | tail _ move ih => exact trans ih (others _ _ move)
      exact trans before (trans (step _ _ _ _ calls.1 answered) (ih (calls.2 reply)))

/-- Two runs from worlds that are alike make the same calls and end alike. -/
theorem lockstep (alike : World → World → Prop)
    (step : ∀ request u v reply reply' u' v', allowed request → alike u v →
      answers request u reply u' → answers' request v reply' v' → reply' = reply ∧ alike u' v')
    {program : Prog Ans α} (calls : Calls allowed program) {u v u' v' : World}
    {made made' : List (Exchange Ans)} {value value' : α} (start : alike u v)
    (run : Traced answers Alone program u made value u')
    (run' : Traced answers' Alone program v made' value' v') :
    made' = made ∧ value' = value ∧ alike u' v' := by
  induction run generalizing v made' with
  | ret =>
      obtain ⟨rfl, rfl, rfl⟩ := of_ret run'
      exact ⟨rfl, rfl, start⟩
  | @call request next u u₁ u₂ u₃ reply made value moves answered _ ih =>
      obtain rfl := eq_of_alone moves
      cases run' with
      | call moves' answered' rest' =>
          obtain rfl := eq_of_alone moves'
          obtain ⟨rfl, later⟩ := step _ _ _ _ _ _ _ calls.1 start answered answered'
          obtain ⟨rfl, same, ends⟩ := ih (calls.2 _) later rest'
          exact ⟨rfl, same, ends⟩

end Traced

end Relay.Effect
