import Relay.Json.Scan

/-!
What a decoder meets in a text.

Which numbers a decoder comes to, and how deep the arrays and objects are that
it opens, depends on the text alone: it goes on until a number is refused, the
nesting is too deep, or the grammar ends. So a decoder with any hook and any
limit gets into trouble exactly when the text has trouble for it: `Meets` asks
one decoder that refuses a single number, `NestsDeeper` one that refuses none.
-/

namespace Relay.Json

abbrev Hook (E N : Type) := Token → Except E (Value N)

/-- Refuse one number only. -/
def refuse (t : Token) : Hook Unit Unit := fun u => if u = t then .error () else .ok .null

/-- Refuse no number. -/
def accept : Hook Unit Unit := fun _ => .ok .null

/-- The decoder comes to the number `t`. -/
def Meets (cs : List Char) (t : Token) : Prop :=
  ∃ depth, loads (refuse t) depth cs = .error (.number ())

/-- The decoder comes to an array or object inside `depth` others. -/
def NestsDeeper (cs : List Char) (depth : Nat) : Prop := loads accept depth cs = .error .tooDeep

/-! ### Steps -/

/-- What can stop a decoder before the grammar does. -/
inductive Step where
  | number (t : Token)
  /-- An array or object opens inside `level` others. -/
  | nest (level : Nat)

variable {E N : Type}

/-- The failure at the first step that a hook or a limit refuses. -/
def stop (hook : Hook E N) (depth : Nat) : List Step → Option (ScanError E)
  | [] => none
  | .number t :: rest =>
      match hook t with
      | .error e => some (.number e)
      | .ok _ => stop hook depth rest
  | .nest level :: rest => if level < depth then stop hook depth rest else some .tooDeep

/-- A result after `steps`: the failure of the first that is refused, or else
what the grammar makes of it, a rest or a syntax error. -/
def Follows {α : Type} (hook : Hook E N) (depth : Nat) (steps : List Step)
    (finish : Except (String × Nat) (List Char)) (result : Except (ScanError E) (α × List Char)) :
    Prop :=
  match stop hook depth steps with
  | some err => result = .error err
  | none =>
      match finish with
      | .ok rest => ∃ value, result = .ok (value, rest)
      | .error (msg, left) => result = .error (.syntaxError msg left)

/-- A scanner for every hook and limit; `A` is what it is given. -/
abbrev Family (A B : Type → Type) := (E N : Type) → Hook E N → (depth : Nat) → A N →
  Except (ScanError E) (B N × List Char)

/-- One list of steps fits all hooks and all limits up to `bound`. -/
def HasSteps {A B : Type → Type} (bound : Nat) (scan : Family A B) : Prop :=
  ∃ steps finish, ∀ (E N : Type) (hook : Hook E N) (depth : Nat) (given : A N), depth ≤ bound →
    Follows hook depth steps finish (scan E N hook depth given)

theorem stop_append (hook : Hook E N) (depth : Nat) (before after : List Step) :
    stop hook depth (before ++ after) = (stop hook depth before).or (stop hook depth after) := by
  induction before with
  | nil => rfl
  | cons step rest ih =>
      cases step with
      | number t =>
          simp only [List.cons_append, stop]
          cases hook t with
          | error e => rfl
          | ok value => exact ih
      | nest level =>
          simp only [List.cons_append, stop]
          split
          · exact ih
          · rfl

/-- Steps inside one more array or object. -/
def Step.inside : Step → Step
  | .number t => .number t
  | .nest level => .nest (level + 1)

theorem stop_inside (hook : Hook E N) (depth : Nat) (steps : List Step) :
    stop hook (depth + 1) (steps.map Step.inside) = stop hook depth steps := by
  induction steps with
  | nil => rfl
  | cons step rest ih =>
      cases step with
      | number t => simp only [List.map_cons, Step.inside, stop, ih]
      | nest level => simp only [List.map_cons, Step.inside, stop, ih, Nat.add_lt_add_iff_right]

/-! ### Rules -/

section Rules

variable {A B C : Type → Type} {bound : Nat}

theorem hasSteps_ok (value : (E N : Type) → Hook E N → Nat → A N → B N) (rest : List Char) :
    HasSteps bound (fun E N hook depth (given : A N) => .ok (value E N hook depth given, rest)) := by
  refine ⟨[], .ok rest, ?_⟩
  intro E N hook depth given small
  exact ⟨_, rfl⟩

theorem hasSteps_syntaxError (msg : String) (left : Nat) :
    HasSteps bound (fun _ N _ _ (_ : A N) =>
      (.error (.syntaxError msg left) : Except _ (B N × List Char))) := by
  refine ⟨[], .error (msg, left), ?_⟩
  intro E N hook depth given small
  exact rfl

/-- A scanner, and then another on the rest it leaves. -/
theorem HasSteps.bind {first : Family A B} {whole : Family A C} (start : HasSteps bound first)
    (next : List Char → Family (fun N => A N × B N) C)
    (sequence : ∀ E N hook depth given, whole E N hook depth given =
      match first E N hook depth given with
      | .error err => .error err
      | .ok (value, rest) => next rest E N hook depth (given, value))
    (go : ∀ rest, HasSteps bound (next rest)) : HasSteps bound whole := by
  obtain ⟨steps, finish, follows⟩ := start
  cases finish with
  | error err =>
      refine ⟨steps, .error err, ?_⟩
      intro E N hook depth given small
      have before := follows E N hook depth given small
      rw [sequence]
      unfold Follows at before ⊢
      cases stopped : stop hook depth steps with
      | some err =>
          simp only [stopped] at before
          simp only [before]
      | none =>
          simp only [stopped] at before
          simp only [before]
  | ok rest =>
      obtain ⟨more, finish, follows'⟩ := go rest
      refine ⟨steps ++ more, finish, ?_⟩
      intro E N hook depth given small
      have before := follows E N hook depth given small
      rw [sequence]
      unfold Follows at before ⊢
      rw [stop_append]
      cases stopped : stop hook depth steps with
      | some err =>
          simp only [stopped] at before
          simp only [before, Option.some_or]
      | none =>
          simp only [stopped] at before
          obtain ⟨value, read⟩ := before
          simp only [read, Option.none_or]
          exact follows' E N hook depth (given, value) small

theorem HasSteps.map {scan : Family A B} (start : HasSteps bound scan)
    (value : (E N : Type) → Hook E N → Nat → A N → B N → C N) :
    HasSteps bound (fun E N hook depth given =>
      (scan E N hook depth given).map fun (read, rest) => (value E N hook depth given read, rest)) := by
  obtain ⟨steps, finish, follows⟩ := start
  refine ⟨steps, finish, ?_⟩
  intro E N hook depth given small
  have before := follows E N hook depth given small
  unfold Follows at before ⊢
  cases stopped : stop hook depth steps with
  | some err =>
      simp only [stopped] at before
      simp only [before, Except.map]
  | none =>
      simp only [stopped] at before
      cases finish with
      | error err =>
          simp only at before
          simp only [before, Except.map]
      | ok rest =>
          obtain ⟨read, same⟩ := before
          simp only [same, Except.map]
          exact ⟨_, rfl⟩

/-- A scanner that is given more than it looks at. -/
theorem HasSteps.given {scan : Family A B} (start : HasSteps bound scan)
    (part : (N : Type) → C N → A N) :
    HasSteps bound (fun E N hook depth (given : C N) => scan E N hook depth (part N given)) := by
  obtain ⟨steps, finish, follows⟩ := start
  refine ⟨steps, finish, ?_⟩
  intro E N hook depth given small
  exact follows E N hook depth (part N given) small

theorem hasSteps_hooked (t : Token) (rest : List Char) :
    HasSteps bound (fun _ N hook _ (_ : A N) => hooked (hook t) rest) := by
  refine ⟨[.number t], .ok rest, ?_⟩
  intro E N hook depth given small
  unfold Follows
  simp only [stop]
  cases hook t with
  | error e => rfl
  | ok value => exact ⟨value, rfl⟩

end Rules

/-! ### The scanners -/

section Scanners

variable {A : Type → Type} {bound : Nat}

theorem hasSteps_scanBody (start fuel : Nat) (cs : List Char) :
    HasSteps (A := A) (B := fun _ => List Char) bound (fun _ _ _ _ _ => scanBody start fuel cs) := by
  induction fuel generalizing cs with
  | zero => exact hasSteps_syntaxError _ _
  | succ fuel ih =>
      simp only [scanBody]
      cases lexChar cs with
      | char c rest => exact (ih rest).map fun _ _ _ _ _ body => c :: body
      | close rest => exact hasSteps_ok (fun _ _ _ _ _ => []) rest
      | fail msg left => exact hasSteps_syntaxError msg left
      | unterminated => exact hasSteps_syntaxError _ _

theorem hasSteps_scanString (cs : List Char) :
    HasSteps (A := A) (B := fun _ => String) bound (fun _ _ _ _ _ => scanString cs) :=
  (hasSteps_scanBody _ _ cs).map fun _ _ _ _ _ body => String.ofList body

theorem hasSteps_scanScalar (cs : List Char) :
    HasSteps (A := A) (B := Value) bound (fun _ _ hook _ _ => scanScalar hook cs) := by
  unfold scanScalar
  split
  · exact (hasSteps_scanString _).map fun _ _ _ _ _ s => Value.str s
  · exact hasSteps_ok (fun _ _ _ _ _ => Value.null) _
  · exact hasSteps_ok (fun _ _ _ _ _ => Value.bool true) _
  · exact hasSteps_ok (fun _ _ _ _ _ => Value.bool false) _
  · exact hasSteps_hooked _ _
  · exact hasSteps_hooked _ _
  · exact hasSteps_hooked _ _
  · split
    · exact hasSteps_hooked _ _
    · exact hasSteps_syntaxError _ _

/-- A scanner of values for every hook and limit that has steps on every text. -/
def Steady (bound : Nat) (scan : (E N : Type) → Hook E N → Nat → Scanner N E) : Prop :=
  ∀ cs, HasSteps (A := fun _ => Unit) (B := Value) bound (fun E N hook depth _ => scan E N hook depth cs)

/-- The items of an array after one of them. -/
def itemsAfter (scan : Scanner N E) (fuel : Nat) (v : Value N) (rest : List Char) :
    Except (ScanError E) (List (Value N) × List Char) :=
  match skipWs rest with
  | ']' :: rest => .ok ([v], rest)
  | ',' :: rest => (scanItems scan fuel (skipWs rest)).map fun (vs, rest) => (v :: vs, rest)
  | rest => .error (.syntaxError "Expecting ',' delimiter" rest.length)

/-- The value of a member after its key. -/
def memberAfter (scan : Scanner N E) (key : String) (rest : List Char) :
    Except (ScanError E) ((String × Value N) × List Char) :=
  match skipWs rest with
  | ':' :: rest => (scan (skipWs rest)).map fun (v, rest) => ((key, v), rest)
  | rest => .error (.syntaxError "Expecting ':' delimiter" rest.length)

/-- The members of an object after one of them. -/
def membersAfter (scan : Scanner N E) (fuel : Nat) (member : String × Value N) (rest : List Char) :
    Except (ScanError E) (List (String × Value N) × List Char) :=
  match skipWs rest with
  | '\x7d' :: rest => .ok ([member], rest)
  | ',' :: rest => (scanMembers scan fuel (skipWs rest)).map fun (ms, rest) => (member :: ms, rest)
  | rest => .error (.syntaxError "Expecting ',' delimiter" rest.length)

variable {scan : (E N : Type) → Hook E N → Nat → Scanner N E}

theorem Steady.given (steady : Steady bound scan) (cs : List Char) :
    HasSteps (A := A) (B := Value) bound (fun E N hook depth _ => scan E N hook depth cs) :=
  (steady cs).given fun _ _ => ()

theorem hasSteps_scanItems (steady : Steady bound scan) (fuel : Nat) (cs : List Char) :
    HasSteps (A := A) (B := fun N => List (Value N)) bound
      (fun E N hook depth _ => scanItems (scan E N hook depth) fuel cs) := by
  induction fuel generalizing cs A with
  | zero => exact hasSteps_syntaxError _ _
  | succ fuel ih =>
      refine (steady.given cs).bind (fun rest E N hook depth given =>
        itemsAfter (scan E N hook depth) fuel given.2 rest) ?_ fun rest => ?_
      · intro E N hook depth given
        rw [scanItems]
        cases scan E N hook depth cs <;> rfl
      unfold itemsAfter
      split
      · exact hasSteps_ok (fun _ N _ _ (given : A N × Value N) => [given.2]) _
      · exact (ih _).map fun _ N _ _ (given : A N × Value N) vs => given.2 :: vs
      · exact hasSteps_syntaxError _ _

theorem hasSteps_scanArray (steady : Steady bound scan) (cs : List Char) :
    HasSteps (A := A) (B := Value) bound
      (fun E N hook depth _ => scanArray (scan E N hook depth) cs) := by
  unfold scanArray
  split
  · exact hasSteps_ok (fun _ _ _ _ _ => Value.arr []) _
  · exact (hasSteps_scanItems steady _ _).map fun _ _ _ _ _ vs => Value.arr vs

theorem hasSteps_scanMember (steady : Steady bound scan) (cs : List Char) :
    HasSteps (A := A) (B := fun N => String × Value N) bound
      (fun E N hook depth _ => scanMember (scan E N hook depth) cs) := by
  unfold scanMember
  split
  · rename_i cs
    refine (hasSteps_scanString cs).bind (fun rest E N hook depth given =>
      memberAfter (scan E N hook depth) given.2 rest) ?_ fun rest => ?_
    · intro E N hook depth given
      cases scanString cs <;> rfl
    unfold memberAfter
    split
    · exact (steady.given _).map fun _ N _ _ (given : A N × String) v => (given.2, v)
    · exact hasSteps_syntaxError _ _
  · exact hasSteps_syntaxError _ _

theorem hasSteps_scanMembers (steady : Steady bound scan) (fuel : Nat) (cs : List Char) :
    HasSteps (A := A) (B := fun N => List (String × Value N)) bound
      (fun E N hook depth _ => scanMembers (scan E N hook depth) fuel cs) := by
  induction fuel generalizing cs A with
  | zero => exact hasSteps_syntaxError _ _
  | succ fuel ih =>
      refine (hasSteps_scanMember steady cs).bind (fun rest E N hook depth given =>
        membersAfter (scan E N hook depth) fuel given.2 rest) ?_ fun rest => ?_
      · intro E N hook depth given
        rw [scanMembers]
        cases scanMember (scan E N hook depth) cs <;> rfl
      unfold membersAfter
      split
      · exact hasSteps_ok (fun _ N _ _ (given : A N × (String × Value N)) => [given.2]) _
      · exact (ih _).map fun _ N _ _ (given : A N × (String × Value N)) ms => given.2 :: ms
      · exact hasSteps_syntaxError _ _

theorem hasSteps_scanObject (steady : Steady bound scan) (cs : List Char) :
    HasSteps (A := A) (B := Value) bound
      (fun E N hook depth _ => scanObject (scan E N hook depth) cs) := by
  unfold scanObject
  split
  · exact hasSteps_ok (fun _ _ _ _ _ => Value.obj []) _
  · exact (hasSteps_scanMembers steady _ _).map fun _ _ _ _ _ ms => Value.obj (dictOf ms)

/-- An array or object that must be at most as deep as the limit. -/
theorem HasSteps.enter {whole inner : Family A Value} (steps : HasSteps bound inner)
    (shallow : ∀ E N hook given, whole E N hook 0 given = .error .tooDeep)
    (deep : ∀ E N hook depth given,
      whole E N hook (depth + 1) given = inner E N hook depth given) :
    HasSteps (bound + 1) whole := by
  obtain ⟨steps, finish, follows⟩ := steps
  refine ⟨.nest 0 :: steps.map Step.inside, finish, ?_⟩
  intro E N hook depth given small
  unfold Follows
  cases depth with
  | zero => exact shallow E N hook given
  | succ depth =>
      simp only [stop, Nat.zero_lt_succ, if_true, stop_inside, deep]
      exact follows E N hook depth given (by omega)

theorem hasSteps_tooDeep {whole : Family A Value}
    (shallow : ∀ E N hook given, whole E N hook 0 given = .error .tooDeep) : HasSteps 0 whole := by
  refine ⟨[.nest 0], .ok [], ?_⟩
  intro E N hook depth given small
  obtain rfl := Nat.le_zero.mp small
  exact shallow E N hook given

theorem steady_scanOnce (bound : Nat) : Steady bound (fun _ _ hook depth => scanOnce hook depth) := by
  induction bound with
  | zero =>
      intro cs
      by_cases array : ∃ rest, cs = '[' :: rest
      · obtain ⟨rest, rfl⟩ := array
        exact hasSteps_tooDeep fun _ _ _ _ => rfl
      by_cases object : ∃ rest, cs = '\x7b' :: rest
      · obtain ⟨rest, rfl⟩ := object
        exact hasSteps_tooDeep fun _ _ _ _ => rfl
      · simp only [scanOnce_of_scalar _ _ (not_exists.mp array) (not_exists.mp object)]
        exact hasSteps_scanScalar cs
  | succ bound ih =>
      intro cs
      by_cases array : ∃ rest, cs = '[' :: rest
      · obtain ⟨rest, rfl⟩ := array
        exact (hasSteps_scanArray ih rest).enter (fun _ _ _ _ => rfl) fun _ _ _ _ _ => rfl
      by_cases object : ∃ rest, cs = '\x7b' :: rest
      · obtain ⟨rest, rfl⟩ := object
        exact (hasSteps_scanObject ih rest).enter (fun _ _ _ _ => rfl) fun _ _ _ _ _ => rfl
      · simp only [scanOnce_of_scalar _ _ (not_exists.mp array) (not_exists.mp object)]
        exact hasSteps_scanScalar cs

end Scanners

/-! ### A whole text -/

/-- The steps of a text, for every limit up to `bound`: a decoder stops at the
first one that its hook or limit refuses. -/
theorem loads_steps (bound : Nat) (cs : List Char) :
    ∃ steps, ∀ (E N : Type) (hook : Hook E N) (depth : Nat), depth ≤ bound →
      match stop hook depth steps with
      | some err => loads hook depth cs = .error err
      | none => (∃ value, loads hook depth cs = .ok value) ∨
          ∃ msg left, loads hook depth cs = .error (.syntaxError msg left) := by
  by_cases mark : cs.head? = some '\uFEFF'
  · refine ⟨[], ?_⟩
    intro E N hook depth small
    exact .inr ⟨_, _, if_pos mark⟩
  · obtain ⟨steps, finish, follows⟩ := steady_scanOnce bound (skipWs cs)
    refine ⟨steps, ?_⟩
    intro E N hook depth small
    have scanned := follows E N hook depth () small
    unfold Follows at scanned
    cases stopped : stop hook depth steps with
    | some err =>
        simp only [stopped] at scanned
        simp only [loads, if_neg mark, scanned]
    | none =>
        simp only [stopped] at scanned
        cases finish with
        | error err =>
            simp only at scanned
            exact .inr ⟨err.1, err.2, by simp only [loads, if_neg mark, scanned]⟩
        | ok rest =>
            obtain ⟨value, read⟩ := scanned
            simp only [loads, if_neg mark, read]
            split
            · exact .inl ⟨value, rfl⟩
            · exact .inr ⟨_, _, rfl⟩

/-- The first refused step is a number that the hook refuses, or too deep. -/
theorem stop_cases {hook : Hook E N} {depth : Nat} {steps : List Step} {err : ScanError E}
    (stopped : stop hook depth steps = some err) :
    (∃ t e, Step.number t ∈ steps ∧ hook t = .error e ∧ err = .number e ∧
      stop (refuse t) depth steps = some (.number ())) ∨
    err = .tooDeep ∧ stop accept depth steps = some .tooDeep := by
  induction steps with
  | nil => cases stopped
  | cons step rest ih =>
      cases step with
      | number t =>
          simp only [stop] at stopped
          cases refused : hook t with
          | error e =>
              simp only [refused, Option.some.injEq] at stopped
              exact .inl ⟨t, e, List.mem_cons_self, refused, stopped.symm, by simp [stop, refuse]⟩
          | ok value =>
              simp only [refused] at stopped
              rcases ih stopped with ⟨u, e, mem, refused', same, probe⟩ | ⟨same, probe⟩
              · have other : t ≠ u := by
                  rintro rfl
                  rw [refused] at refused'
                  cases refused'
                exact .inl ⟨u, e, List.mem_cons_of_mem _ mem, refused', same, by simp [stop, refuse, other, probe]⟩
              · exact .inr ⟨same, by simpa only [stop, accept] using probe⟩
      | nest level =>
          simp only [stop] at stopped ⊢
          split at stopped
          · rename_i inside
            rcases ih stopped with ⟨u, e, mem, refused, same, probe⟩ | ⟨same, probe⟩
            · exact .inl ⟨u, e, List.mem_cons_of_mem _ mem, refused, same, by rw [if_pos inside, probe]⟩
            · exact .inr ⟨same, by rw [if_pos inside, probe]⟩
          · rename_i outside
            exact .inr ⟨(Option.some.inj stopped).symm, by rw [if_neg outside]⟩

/-- A step that is refused stops the decoder, there or before. -/
theorem stop_of_number {hook : Hook E N} {depth : Nat} {steps : List Step} {t : Token} {e : E}
    (mem : Step.number t ∈ steps) (refused : hook t = .error e) : (stop hook depth steps).isSome = true := by
  induction steps with
  | nil => cases mem
  | cons step rest ih =>
      rcases List.mem_cons.mp mem with rfl | later
      · simp [stop, refused]
      · cases step with
        | number u =>
            simp only [stop]
            cases hook u with
            | error e => rfl
            | ok value => exact ih later
        | nest level =>
            simp only [stop]
            split
            · exact ih later
            · rfl

theorem stop_of_tooDeep {hook : Hook E N} {depth : Nat} {steps : List Step}
    (deep : stop accept depth steps = some .tooDeep) :
    (stop hook depth steps).isSome = true := by
  induction steps with
  | nil => cases deep
  | cons step rest ih =>
      cases step with
      | number u =>
          simp only [stop] at deep ⊢
          cases hook u with
          | error e => rfl
          | ok value => exact ih deep
      | nest level =>
          simp only [stop] at deep ⊢
          split
          · rename_i inside
            exact ih (by rwa [if_pos inside] at deep)
          · rfl

/-- A decoder fails for another reason than the grammar exactly when it comes to
a number that its hook refuses, or nests deeper than its limit. -/
theorem loads_stops_iff (hook : Hook E N) (depth : Nat) (cs : List Char) :
    ((∃ e, loads hook depth cs = .error (.number e)) ∨ loads hook depth cs = .error .tooDeep) ↔
      (∃ t e, Meets cs t ∧ hook t = .error e) ∨ NestsDeeper cs depth := by
  constructor
  · intro stops
    obtain ⟨steps, follows⟩ := loads_steps depth cs
    have run := follows E N hook depth le_rfl
    cases stopped : stop hook depth steps with
    | none =>
        simp only [stopped] at run
        rcases run with ⟨value, read⟩ | ⟨msg, left, read⟩ <;> simp [read] at stops
    | some err =>
        rcases stop_cases stopped with ⟨t, e, -, refused, -, probe⟩ | ⟨-, probe⟩
        · have meets := follows Unit Unit (refuse t) depth le_rfl
          rw [probe] at meets
          exact .inl ⟨t, e, ⟨depth, meets⟩, refused⟩
        · have nests := follows Unit Unit accept depth le_rfl
          rw [probe] at nests
          exact .inr nests
  · intro trouble
    have stops : ∃ steps, (stop hook depth steps).isSome = true ∧
        ∀ err, stop hook depth steps = some err → loads hook depth cs = .error err := by
      rcases trouble with ⟨t, e, ⟨enough, meets⟩, refused⟩ | nests
      · obtain ⟨steps, follows⟩ := loads_steps (max depth enough) cs
        have probe := follows Unit Unit (refuse t) enough (le_max_right _ _)
        have run := follows E N hook depth (le_max_left _ _)
        refine ⟨steps, ?_, fun err stopped => by rwa [stopped] at run⟩
        cases stopped : stop (refuse t) enough steps with
        | none =>
            rw [stopped, meets] at probe
            rcases probe with ⟨value, read⟩ | ⟨msg, left, read⟩ <;> cases read
        | some err =>
            rw [stopped, meets] at probe
            cases probe
            rcases stop_cases stopped with ⟨u, e', mem, refused', -, -⟩ | ⟨same, -⟩
            · have same : u = t := by
                by_contra other
                rw [refuse, if_neg other] at refused'
                cases refused'
              exact stop_of_number (same ▸ mem) refused
            · cases same
      · obtain ⟨steps, follows⟩ := loads_steps depth cs
        have probe := follows Unit Unit accept depth le_rfl
        have run := follows E N hook depth le_rfl
        refine ⟨steps, ?_, fun err stopped => by rwa [stopped] at run⟩
        cases stopped : stop accept depth steps with
        | none =>
            rw [stopped, nests] at probe
            rcases probe with ⟨value, read⟩ | ⟨msg, left, read⟩ <;> cases read
        | some err =>
            rw [stopped, nests] at probe
            cases probe
            exact stop_of_tooDeep stopped
    obtain ⟨steps, stopped, fails⟩ := stops
    obtain ⟨err, stopped⟩ := Option.isSome_iff_exists.mp stopped
    rcases stop_cases stopped with ⟨t, e, -, -, rfl, -⟩ | ⟨rfl, -⟩
    · exact .inl ⟨e, fails _ stopped⟩
    · exact .inr (fails _ stopped)

end Relay.Json
