import Mathlib.Algebra.Order.Floor.Ring
import Mathlib.Data.Rat.Floor
import Relay.Effect.Pool
import Relay.Worker.Classify

/-!
What the worker waits before a message is received again.

Up to 1024 receives the delay lies between the capped exponential and that plus
the base, and never above the limit of SQS (`bounded_iff`). The exponential is a
float before the cap is applied, so from 1025 receives on the call raises.
-/

namespace Relay.Worker

open Relay.Platform Relay.Python Relay.Effect

/-- The delay without jitter, over the rationals. -/
def leastDelay (attempt : Int) (base cap : ℚ) : ℚ := min cap (base * 2 ^ (max 1 attempt - 1).toNat)

/-- `uniform(0, base)` returns this jitter. -/
def Jitters (base jitter : ℚ) : (request : Request) → Unit → request.Answer → Unit → Prop
  | .random, _, draw, _ => base * draw = jitter
  | _, _, _, _ => False

/-- What the call may return with this jitter. -/
def BacksOff (attempt : Int) (base cap jitter : ℚ) (result : Except Exn Int) : Prop :=
  Exec (Jitters base jitter) (fun _ _ => False) (nextVisibilityTimeout attempt base cap) () result ()

/-- Whatever the jitter, the call returns one integer between the bounds, and the
lower one is not less than after fewer receives. -/
structure Bounded (attempt : Int) (base cap : ℚ) : Prop where
  returns : ∀ jitter, 0 ≤ jitter → jitter ≤ base → ∃ d : Int,
    (∀ result, BacksOff attempt base cap jitter result ↔ result = .ok d) ∧
      min (maxVisibilityTimeout : ℚ) (leastDelay attempt base cap) ≤ d ∧
      d ≤ min maxVisibilityTimeout ⌈leastDelay attempt base cap + base⌉
  rises : ∀ earlier ≤ attempt, min (maxVisibilityTimeout : ℚ) (leastDelay earlier base cap) ≤
    min (maxVisibilityTimeout : ℚ) (leastDelay attempt base cap)

theorem leastDelay_mono {earlier attempt : Int} (le : earlier ≤ attempt) {base : ℚ} (pos : 0 < base)
    (cap : ℚ) : leastDelay earlier base cap ≤ leastDelay attempt base cap := by
  have doublings : (max 1 earlier - 1).toNat ≤ (max 1 attempt - 1).toNat :=
    Int.toNat_le_toNat (sub_le_sub_right (max_le_max_left 1 le) 1)
  refine min_le_min_left cap ?_
  gcongr
  norm_num

theorem delay_eq (attempt : Int) (base cap : ℚ) :
    delay attempt base cap = if attempt ≤ 1024 then .ok (leastDelay attempt base cap)
      else .error (.other "OverflowError" "int too large to convert to float") := by
  have doublings : 1024 ≤ (max 1 attempt - 1).toNat ↔ ¬ attempt ≤ 1024 := by omega
  rw [delay, leastDelay]
  by_cases few : attempt ≤ 1024
  · rw [if_pos few, if_neg fun many => doublings.mp many few]
  · rw [if_neg few, if_pos (doublings.mpr few)]

/-- The integer that the call returns is between the bounds. -/
theorem ceil_bounds {low jitter base : ℚ} (limit : Int) (nonneg : 0 ≤ jitter) (le : jitter ≤ base) :
    min (limit : ℚ) low ≤ (min limit ⌈low + jitter⌉ : Int) ∧ min limit ⌈low + jitter⌉ ≤ min limit ⌈low + base⌉ := by
  constructor
  · rw [Int.cast_min]
    refine min_le_min_left _ ?_
    calc low ≤ low + jitter := le_add_of_nonneg_right nonneg
      _ ≤ ⌈low + jitter⌉ := Int.le_ceil _
  · exact min_le_min_left _ (Int.ceil_mono (add_le_add_right le low))

section Calls

variable {attempt : Int} {base cap jitter : ℚ}

theorem backsOff_iff (few : attempt ≤ 1024) (pos : 0 < base) (result : Except Exn Int) :
    BacksOff attempt base cap jitter result ↔
      result = .ok (min maxVisibilityTimeout ⌈leastDelay attempt base cap + jitter⌉) := by
  rw [BacksOff, nextVisibilityTimeout, delay_eq, if_pos few]
  constructor
  · intro run
    obtain ⟨_, draw, _, _, answered, run⟩ := Exec.of_perform_bind run
    obtain rfl : base * draw = jitter := answered
    exact (Exec.of_ret run).1
  · rintro rfl
    have answered : Jitters base jitter .random () (jitter / base) () :=
      mul_div_cancel₀ jitter pos.ne'
    have value : min maxVisibilityTimeout ⌈leastDelay attempt base cap + base * (jitter / base)⌉ =
        min maxVisibilityTimeout ⌈leastDelay attempt base cap + jitter⌉ := by
      rw [mul_div_cancel₀ jitter pos.ne']
    rw [← value]
    exact .call .refl answered .ret

theorem backsOff_overflow (many : ¬ attempt ≤ 1024) (result : Except Exn Int) :
    BacksOff attempt base cap jitter result ↔
      result = .error (.other "OverflowError" "int too large to convert to float") := by
  rw [BacksOff, nextVisibilityTimeout, delay_eq, if_neg many]
  constructor
  · exact fun run => (Exec.of_ret run).1
  · rintro rfl
    exact .ret

end Calls

/-- The bounds hold up to 1024 receives, and from then on the call raises. -/
theorem bounded_iff (attempt : Int) {base : ℚ} (cap : ℚ) (pos : 0 < base) :
    Bounded attempt base cap ↔ attempt ≤ 1024 := by
  constructor
  · intro bounded
    by_contra many
    obtain ⟨d, returns, -⟩ := bounded.returns 0 le_rfl pos.le
    have raised : BacksOff attempt base cap 0
        (.error (.other "OverflowError" "int too large to convert to float")) :=
      (backsOff_overflow many _).mpr rfl
    cases (returns _).mp raised
  · intro few
    exact {
      returns := fun jitter nonneg le =>
        ⟨_, backsOff_iff few pos, ceil_bounds maxVisibilityTimeout nonneg le⟩
      rises := fun earlier le => min_le_min_left _ (leastDelay_mono le pos cap) }

/-- The fifth receive, with the defaults of the worker. -/
theorem bounded_fifth : Bounded 5 60 900 :=
  (bounded_iff 5 900 (by norm_num)).mpr (by norm_num)

/-- The 1025th receive raises. -/
theorem not_bounded_1025 : ¬ Bounded 1025 60 900 := by
  intro bounded
  obtain ⟨d, returns, -⟩ := bounded.returns 0 le_rfl (by norm_num)
  have raised : BacksOff 1025 60 900 0 (.error (.other "OverflowError" "int too large to convert to float")) :=
    (backsOff_overflow (by norm_num) _).mpr rfl
  cases (returns _).mp raised

end Relay.Worker
