import Mathlib.Tactic.ByContra

/-!
A computation that makes checks in a fixed order.

A `Check` is what it demands and the error where that fails. A result `Answers`
a list of checks when it succeeds exactly if all pass, and otherwise fails with
the error of the first that does not. Computations in sequence answer their
checks one list after the other.
-/

namespace Relay.Data

structure Check (E : Type) where
  demand : Prop
  error : E

variable {E α β : Type}

def AllPass (checks : List (Check E)) : Prop := ∀ check ∈ checks, check.demand

/-- `error` is the error of the first check that fails. -/
def FirstFails (checks : List (Check E)) (error : E) : Prop :=
  ∃ before check after, checks = before ++ check :: after ∧ AllPass before ∧ ¬ check.demand ∧
    error = check.error

structure Answers (checks : List (Check E)) (result : Except E α) (Result : α → Prop) : Prop where
  accepts : (∃ value, result = .ok value) ↔ AllPass checks
  value : ∀ value, result = .ok value → Result value
  refuses : ∀ error, result = .error error → FirstFails checks error

theorem allPass_nil : AllPass ([] : List (Check E)) := by
  intro check mem
  cases mem

@[simp] theorem allPass_cons {check : Check E} {checks : List (Check E)} :
    AllPass (check :: checks) ↔ check.demand ∧ AllPass checks := by
  simp [AllPass]

@[simp] theorem allPass_append {before after : List (Check E)} :
    AllPass (before ++ after) ↔ AllPass before ∧ AllPass after := by
  simp [AllPass, or_imp, forall_and]

theorem FirstFails.not_allPass {checks : List (Check E)} {error : E}
    (fails : FirstFails checks error) : ¬ AllPass checks := by
  obtain ⟨before, check, after, rfl, -, failed, -⟩ := fails
  intro pass
  exact failed (pass check (by simp))

theorem FirstFails.append {before after : List (Check E)} {error : E}
    (fails : FirstFails before error) : FirstFails (before ++ after) error := by
  obtain ⟨first, check, rest, rfl, pass, failed, same⟩ := fails
  exact ⟨first, check, rest ++ after, by simp, pass, failed, same⟩

theorem FirstFails.prepend {before after : List (Check E)} {error : E} (pass : AllPass before)
    (fails : FirstFails after error) : FirstFails (before ++ after) error := by
  obtain ⟨first, check, rest, rfl, pass', failed, same⟩ := fails
  exact ⟨before ++ first, check, rest, by simp, allPass_append.mpr ⟨pass, pass'⟩, failed, same⟩

/-- The first failing check of two lists is in the second when all of the first
pass. -/
theorem FirstFails.of_append {before after : List (Check E)} {error : E}
    (fails : FirstFails (before ++ after) error) :
    FirstFails before error ∨ AllPass before ∧ FirstFails after error := by
  obtain ⟨first, check, rest, split, pass, failed, same⟩ := fails
  rcases List.append_eq_append_iff.mp split with ⟨middle, rfl, rfl⟩ | ⟨middle, rfl, tail⟩
  · obtain ⟨passBefore, passMiddle⟩ := allPass_append.mp pass
    exact .inr ⟨passBefore, middle, check, rest, rfl, passMiddle, failed, same⟩
  · cases middle with
    | nil =>
        rw [List.nil_append] at tail
        refine .inr ⟨by simpa using pass, [], check, rest, tail.symm, allPass_nil, failed, same⟩
    | cons head middle =>
        obtain ⟨rfl, -⟩ := List.cons.inj tail
        exact .inl ⟨first, check, middle, rfl, pass, failed, same⟩

theorem firstFails_cons {check : Check E} {checks : List (Check E)} {error : E}
    (fails : FirstFails (check :: checks) error) :
    ¬ check.demand ∧ error = check.error ∨ check.demand ∧ FirstFails checks error := by
  obtain ⟨first, found, rest, split, pass, failed, same⟩ := fails
  cases first with
  | nil =>
      obtain ⟨rfl, -⟩ := List.cons.inj split
      exact .inl ⟨failed, same⟩
  | cons head first =>
      obtain ⟨rfl, rfl⟩ := List.cons.inj split
      obtain ⟨passed, pass⟩ := allPass_cons.mp pass
      exact .inr ⟨passed, first, found, rest, rfl, pass, failed, same⟩

/-! ### Results -/

theorem answers_ok {checks : List (Check E)} {value : α} {Result : α → Prop}
    (pass : AllPass checks) (result : Result value) : Answers checks (.ok value) Result where
  accepts := ⟨fun _ => pass, fun _ => ⟨value, rfl⟩⟩
  value := by
    rintro _ ⟨⟩
    exact result
  refuses := by
    rintro _ ⟨⟩

theorem answers_error {checks : List (Check E)} {error : E} {Result : α → Prop}
    (fails : FirstFails checks error) : Answers checks (.error error) Result where
  accepts := by
    constructor
    · rintro ⟨_, ⟨⟩⟩
    · intro pass
      exact absurd pass fails.not_allPass
  value := by
    rintro _ ⟨⟩
  refuses := by
    rintro _ ⟨⟩
    exact fails

/-- One check, which passes. -/
theorem answers_pass {demand : Prop} {error : E} {value : α} {Result : α → Prop} (pass : demand)
    (result : Result value) : Answers [⟨demand, error⟩] (.ok value) Result :=
  answers_ok (by simpa [AllPass] using pass) result

/-- The first check fails. -/
theorem answers_fail {demand : Prop} {error : E} {checks : List (Check E)} {Result : α → Prop}
    (failed : ¬ demand) : Answers (⟨demand, error⟩ :: checks) (.error error) Result :=
  answers_error ⟨[], ⟨demand, error⟩, checks, rfl, allPass_nil, failed, rfl⟩

/-- A check that passes, in front of others. -/
theorem Answers.after_pass {demand : Prop} {error : E} {checks : List (Check E)}
    {result : Except E α} {Result : α → Prop} (pass : demand)
    (answers : Answers checks result Result) : Answers (⟨demand, error⟩ :: checks) result Result where
  accepts := by simpa [pass] using answers.accepts
  value := answers.value
  refuses := by
    intro found failed
    have passed : AllPass [⟨demand, error⟩] := by simpa [AllPass] using pass
    exact FirstFails.prepend passed (answers.refuses found failed)

/-- The checks of a computation, then those of what follows its value. -/
theorem Answers.bind {before after : List (Check E)} {first : Except E α}
    {next : α → Except E β} {First : α → Prop} {Result : β → Prop}
    (start : Answers before first First)
    (rest : ∀ value, First value → Answers after (next value) Result) :
    Answers (before ++ after) (first >>= next) Result := by
  cases first with
  | error error => exact answers_error (start.refuses error rfl).append
  | ok value =>
      have pass := start.accepts.mp ⟨value, rfl⟩
      have tail := rest value (start.value value rfl)
      constructor
      · rw [allPass_append]
        constructor
        · intro accepted
          exact ⟨pass, tail.accepts.mp accepted⟩
        · intro passes
          exact tail.accepts.mpr passes.2
      · exact tail.value
      · intro error failed
        exact (tail.refuses error failed).prepend pass

/-- What follows the last check succeeds. -/
theorem Answers.last {checks : List (Check E)} {first : Except E α} {next : α → Except E β}
    {First : α → Prop} {Result : β → Prop} (start : Answers checks first First)
    (rest : ∀ value, First value → ∃ result, next value = .ok result ∧ Result result) :
    Answers checks (first >>= next) Result := by
  rw [← List.append_nil checks]
  refine start.bind fun value known => ?_
  obtain ⟨result, done, good⟩ := rest value known
  rw [done]
  exact answers_ok allPass_nil good

/-- A result that answers checks with a lax one in a strict one's place answers
the strict ones too exactly when the lax check lets nothing more through. -/
theorem Answers.replace_iff {before after : List (Check E)} {lax strict : Prop} {error : E}
    {result : Except E α} {Result : α → Prop} (weaker : strict → lax)
    (other : ∀ check ∈ after, check.error ≠ error)
    (answers : Answers (before ++ ⟨lax, error⟩ :: after) result Result) :
    Answers (before ++ ⟨strict, error⟩ :: after) result Result ↔
      ¬ (AllPass before ∧ lax ∧ ¬ strict) := by
  constructor
  · rintro exact ⟨pass, through, refused⟩
    cases result with
    | ok value =>
        have all := exact.accepts.mp ⟨value, rfl⟩
        exact refused (all ⟨strict, error⟩ (by simp))
    | error found =>
        rcases (exact.refuses found rfl).of_append with fails | ⟨-, fails⟩
        · exact fails.not_allPass pass
        rcases firstFails_cons fails with ⟨-, rfl⟩ | ⟨passed, -⟩
        · rcases (answers.refuses _ rfl).of_append with fails | ⟨-, fails⟩
          · exact fails.not_allPass pass
          rcases firstFails_cons fails with ⟨failed, -⟩ | ⟨-, fails⟩
          · exact failed through
          · obtain ⟨first, check, rest, split, -, -, same⟩ := fails
            exact other check (by simp [split]) same.symm
        · exact refused passed
  · intro tight
    cases result with
    | ok value =>
        have all := answers.accepts.mp ⟨value, rfl⟩
        simp only [allPass_append, allPass_cons] at all
        refine answers_ok ?_ (answers.value value rfl)
        simp only [allPass_append, allPass_cons]
        refine ⟨all.1, ?_, all.2.2⟩
        by_contra refused
        exact tight ⟨all.1, all.2.1, refused⟩
    | error found =>
        apply answers_error
        rcases (answers.refuses found rfl).of_append with fails | ⟨pass, fails⟩
        · exact fails.append
        refine FirstFails.prepend pass ?_
        rcases firstFails_cons fails with ⟨failed, same⟩ | ⟨passed, fails⟩
        · exact ⟨[], ⟨strict, error⟩, after, rfl, allPass_nil, mt weaker failed, same⟩
        · have strict' : strict := by
            by_contra refused
            exact tight ⟨pass, passed, refused⟩
          obtain ⟨first, check, rest, rfl, pass', failed, same⟩ := fails
          exact ⟨⟨strict, error⟩ :: first, check, rest, rfl, allPass_cons.mpr ⟨strict', pass'⟩,
            failed, same⟩

end Relay.Data
