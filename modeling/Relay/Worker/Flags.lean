import Relay.Effect.Trace
import Relay.Numeric.Shortest
import Relay.Platform.World
import Relay.Worker.App

/-!
What the chaos flags can do to an invocation.

The worker reads its flags before it turns to the first record, so nothing handles
what that raises. A text that is not numeric falls back on a default, but `float` reads
infinities and NaNs too, and `int` refuses both: the flags stop no work exactly where
the text of `worker_crash_after` is neither (`chaos_stops_nothing_iff`). What the text
of `erp_fail_rate` is makes no difference.
-/

namespace Relay.Worker

open Relay.Effect Relay.Platform Relay.Python Relay.Numeric Relation

/-! ### The text of a flag -/

/-- `float(text)`; `none` is a `ValueError`. -/
def float? (text : String) : Option Binary64 :=
  match floatText? text.toList with
  | some (.finite d) => some (.ofRat d.neg |d.value|)
  | some (.infinity neg) => some (.infinity neg)
  | some .nan => some .nan
  | none => none

/-- The text of an infinity, of a NaN, or of a number beyond every double. -/
def NotFinite (text : String) : Prop :=
  match floatText? text.toList with
  | some (.finite d) => halfway ≤ |d.value|
  | some _ => True
  | none => False

/-- A flag that is off: missing, not numeric, not finite, negative or zero. -/
def Off : Option String → Prop
  | none => True
  | some text =>
      match float? text with
      | some (.finite neg x) => neg = true ∨ x = 0
      | _ => True

theorem nonneg_of_float {text : String} {neg : Bool} {x : ℚ} (read : float? text = some (.finite neg x)) :
    0 ≤ x := by
  unfold float? at read
  split at read
  · rename_i d _
    unfold Binary64.ofRat at read
    split at read
    · cases read
      exact round64_nonneg (abs_nonneg d.value)
    · cases read
  · cases read
  · cases read
  · cases read

namespace Chaos

theorem float_eq (text : String) (default : Binary64) :
    float (some text) default = (float? text).getD default := by
  unfold float float?
  split
  · contradiction
  · rename_i empty
    cases empty
    rfl
  · rename_i other _ same
    cases same
    cases floatText? text.toList with
    | none => rfl
    | some number => cases number <;> rfl

/-- `int` takes every double but the infinities and NaN. -/
theorem int_ok_iff (x : Binary64) : (∃ n, int x = .ok n) ↔ ∃ neg magnitude, x = .finite neg magnitude := by
  cases x with
  | finite neg magnitude => exact iff_of_true ⟨_, rfl⟩ ⟨neg, magnitude, rfl⟩
  | infinity neg => exact iff_of_false nofun nofun
  | nan => exact iff_of_false nofun nofun

theorem float_finite_iff (value : Option String) :
    (∃ neg magnitude, float value (.finite false 0) = .finite neg magnitude) ↔
      ∀ text, value = some text → ¬ NotFinite text := by
  cases value with
  | none => exact iff_of_true ⟨false, 0, rfl⟩ nofun
  | some text =>
      rw [float_eq]
      simp only [Option.some.injEq, forall_eq']
      unfold float? NotFinite
      cases floatText? text.toList with
      | none => exact iff_of_true ⟨false, 0, rfl⟩ id
      | some number =>
          cases number with
          | infinity neg => exact iff_of_false nofun fun finite => finite trivial
          | nan => exact iff_of_false nofun fun finite => finite trivial
          | finite d =>
              simp only [Option.getD_some, Binary64.ofRat, round64_lt_overflow_iff (abs_nonneg d.value),
                not_le]
              split
              · rename_i small
                exact iff_of_true ⟨_, _, rfl⟩ small
              · rename_i large
                exact iff_of_false nofun large

theorem ofParameters_ok_iff (params : List (String × String)) :
    (∃ chaos, ofParameters params = .ok chaos) ↔
      ∀ text, valueOf params "worker_crash_after" = some text → ¬ NotFinite text := by
  rw [← float_finite_iff, ← int_ok_iff, ofParameters]
  cases int (float (valueOf params "worker_crash_after") (.finite false 0)) with
  | error exc => exact iff_of_false nofun nofun
  | ok n => exact iff_of_true ⟨_, rfl⟩ ⟨n, rfl⟩

theorem int_of_off {value : Option String} (off : Off value) {n : Int}
    (read : int (float value (.finite false 0)) = .ok n) : n ≤ 0 := by
  have zero : int (.finite false 0) = .ok 0 := by
    rw [int, Int.floor_zero]
    rfl
  cases value with
  | none =>
      cases zero.symm.trans read
      exact le_refl 0
  | some text =>
      rw [float_eq] at read
      unfold Off at off
      cases parsed : float? text with
      | none =>
          rw [parsed] at read
          cases zero.symm.trans read
          exact le_refl 0
      | some x =>
          simp only [parsed] at off read
          cases x with
          | infinity neg => cases read
          | nan => cases read
          | finite neg x =>
              cases read
              rcases off with rfl | rfl
              · have floor := Int.floor_nonneg.mpr (nonneg_of_float parsed)
                simpa using floor
              · simp

/-- Flags that are off crash no invocation. -/
theorem maybeCrash_of_off {params : List (String × String)} {chaos : Chaos}
    (loaded : ofParameters params = .ok chaos) (off : Off (valueOf params "worker_crash_after"))
    (processed : Nat) : chaos.maybeCrash processed = .ok () := by
  unfold ofParameters at loaded
  cases read : int (float (valueOf params "worker_crash_after") (.finite false 0)) with
  | error exc =>
      rw [read] at loaded
      cases loaded
  | ok n =>
      rw [read] at loaded
      cases loaded
      exact if_neg fun crash => absurd crash.1 (not_lt.mpr (int_of_off off read))

/-! ### The flags in SSM -/

/-- The directories of a name do not matter to its last part. -/
theorem baseName_append (dir : String) {name : String} (slash : '/' ∈ name.toList) :
    baseName (dir ++ name) = baseName name := by
  have stops : ((name.toList.reverse).takeWhile (· ≠ '/')).length ≠ name.toList.reverse.length := by
    intro whole
    have same := (List.takeWhile_sublist _).eq_of_length whole
    have plain := List.all_eq_true.mp (List.all_takeWhile (p := (· ≠ '/')) (l := name.toList.reverse)) '/'
    rw [same] at plain
    exact absurd (plain (List.mem_reverse.mpr slash)) (by decide)
  rw [baseName, baseName, String.toList_append, List.reverse_append, List.takeWhile_append, if_neg stops]

end Chaos

/-- The parameters that the worker asks for. -/
def flagNames (paramPrefix : String) : List String :=
  [paramPrefix ++ "/chaos/erp_fail_rate", paramPrefix ++ "/chaos/worker_crash_after"]

/-- The text that is stored for `worker_crash_after`. -/
def crashFlag (paramPrefix : String) (w : World) : Option String :=
  w.parameters (paramPrefix ++ "/chaos/worker_crash_after")

/-- What `GetParameters` shows: of the names that it is asked for, those that have a
value, each with it. -/
def Shows (names : List String) (w : World) (params : List (String × String)) : Prop :=
  ∀ name value, (name, value) ∈ params ↔ name ∈ names ∧ w.parameters name = some value

section Shown

variable {w : World} {params : List (String × String)}

/-- The value under a flag is that of the only name asked for which ends in it. -/
theorem valueOf_of_shows {names : List String} {flag name : String} (shows : Shows names w params) (asked : name ∈ names)
    (only : ∀ other ∈ names, Chaos.baseName other = flag ↔ other = name) :
    Chaos.valueOf params flag = w.parameters name := by
  unfold Chaos.valueOf
  cases found : params.reverse.find? fun p => Chaos.baseName p.1 = flag with
  | none =>
      cases stored : w.parameters name with
      | none => rfl
      | some value =>
          have listed := (shows name value).mpr ⟨asked, stored⟩
          have other := List.find?_eq_none.mp found _ (List.mem_reverse.mpr listed)
          exact absurd ((only name asked).mpr rfl) (by simpa using other)
  | some p =>
      obtain ⟨other, value⟩ := p
      have listed := List.mem_reverse.mp (List.mem_of_find?_eq_some found)
      obtain ⟨known, stored⟩ := (shows other value).mp listed
      have ends : Chaos.baseName other = flag := by simpa using List.find?_some found
      obtain rfl := (only other known).mp ends
      exact stored.symm

theorem baseName_flagNames (paramPrefix : String) :
    (flagNames paramPrefix).map Chaos.baseName = ["erp_fail_rate", "worker_crash_after"] := by
  have rate : Chaos.baseName (paramPrefix ++ "/chaos/erp_fail_rate") = "erp_fail_rate" :=
    (Chaos.baseName_append paramPrefix (by decide)).trans (by decide)
  have crash : Chaos.baseName (paramPrefix ++ "/chaos/worker_crash_after") = "worker_crash_after" :=
    (Chaos.baseName_append paramPrefix (by decide)).trans (by decide)
  rw [flagNames, List.map_cons, List.map_cons, List.map_nil, rate, crash]

/-- The two names end in different flags. -/
theorem valueOf_flagNames {paramPrefix name : String} (shows : Shows (flagNames paramPrefix) w params)
    (asked : name ∈ flagNames paramPrefix) :
    Chaos.valueOf params (Chaos.baseName name) = w.parameters name := by
  have distinct : ((flagNames paramPrefix).map Chaos.baseName).Nodup := by
    rw [baseName_flagNames]
    decide
  refine valueOf_of_shows shows asked fun other mem => ⟨fun same => ?_, congrArg _⟩
  exact List.inj_on_of_nodup_map distinct mem asked same

theorem valueOf_rateFlag {paramPrefix : String} (shows : Shows (flagNames paramPrefix) w params) :
    Chaos.valueOf params "erp_fail_rate" = w.parameters (paramPrefix ++ "/chaos/erp_fail_rate") := by
  have ends := (List.cons_eq_cons.mp (baseName_flagNames paramPrefix)).1
  exact ends ▸ valueOf_flagNames shows List.mem_cons_self

theorem valueOf_crashFlag {paramPrefix : String} (shows : Shows (flagNames paramPrefix) w params) :
    Chaos.valueOf params "worker_crash_after" = crashFlag paramPrefix w := by
  have ends := (List.cons_eq_cons.mp (List.cons_eq_cons.mp (baseName_flagNames paramPrefix)).2).1
  exact ends ▸ valueOf_flagNames shows (List.mem_cons_of_mem _ List.mem_cons_self)

end Shown

/-! ### Invocations -/

/-- An answered `GetParameters` shows what is stored. -/
def Truthful : (request : Request) → World → request.Answer → Prop
  | .getParameters names, w, .ok params => Shows names w params
  | _, _, _ => True

/-- The services, with the flags stored in SSM. -/
def Stored (S : Services) (request : Request) (w : World) (reply : request.Answer) (w' : World) : Prop :=
  S.Answers request w reply w' ∧ Truthful request w reply

/-- The flags that a call read stop no work: they load, the handler goes on to the
time that is left for its first record, and a `worker_crash_after` that is off
crashes no invocation. -/
structure StopsNothing (S : Services) (env : World → World → Prop) (paramPrefix : String)
    (records : List Record) (before : World) (reply : Except String (List (String × String)))
    (after : World) (later : List (Occurrence World Request.Answer)) (chaos : Chaos) : Prop where
  loads : Traced (Stored S) env (Chaos.load paramPrefix) before
    [⟨.getParameters (flagNames paramPrefix), reply⟩] (.ok chaos) after
  reaches : records ≠ [] → ∃ first rest, later = first :: rest ∧ first.request = .remainingTime
  spares : Off (crashFlag paramPrefix before) → ∀ processed, chaos.maybeCrash processed = .ok ()

/-- The flags that a reply holds. -/
def loaded : Except String (List (String × String)) → Except Exn Chaos
  | .error _ => .ok .off
  | .ok params => Chaos.ofParameters params

theorem load_eq (paramPrefix : String) : Chaos.load paramPrefix =
    (Prog.perform (.getParameters (flagNames paramPrefix)) >>= fun reply => .ret (loaded reply) :
      Act (Except Exn Chaos)) := by
  unfold Chaos.load
  congr 1
  funext reply
  cases reply <;> rfl

section Runs

variable {S : Services} {env : World → World → Prop} {rt : Runtime} {settings : Settings}
  {records : List Record} {paramPrefix : String} {before after : World}
  {reply : Except String (List (String × String))}

theorem loaded_of_traced {result : Except Exn Chaos}
    (run : Traced (Stored S) env (Chaos.load paramPrefix) before
      [⟨.getParameters (flagNames paramPrefix), reply⟩] result after) : result = loaded reply := by
  rw [load_eq] at run
  obtain ⟨w₁, reply', w₂, later, made, -, -, rest⟩ := Traced.of_perform_bind run
  obtain ⟨-, rfl, -⟩ := Traced.of_ret rest
  cases made
  rfl

/-- Flags load unless they were read and the text of `worker_crash_after` is not finite. -/
theorem loaded_ok_iff (seen : Truthful (.getParameters (flagNames paramPrefix)) before reply) :
    (∃ chaos, loaded reply = .ok chaos) ↔ (∃ message, reply = .error message) ∨
      ∀ text, crashFlag paramPrefix before = some text → ¬ NotFinite text := by
  cases reply with
  | error message => exact iff_of_true ⟨_, rfl⟩ (.inl ⟨message, rfl⟩)
  | ok params =>
      have flag : Chaos.valueOf params "worker_crash_after" = crashFlag paramPrefix before :=
        valueOf_crashFlag seen
      rw [loaded, Chaos.ofParameters_ok_iff, flag]
      exact ⟨.inr, fun either => either.resolve_left nofun⟩

theorem spares_of_loaded (seen : Truthful (.getParameters (flagNames paramPrefix)) before reply)
    {chaos : Chaos} (ok : loaded reply = .ok chaos) (off : Off (crashFlag paramPrefix before))
    (processed : Nat) : chaos.maybeCrash processed = .ok () := by
  cases reply with
  | error message =>
      cases ok
      exact if_neg fun crash => absurd crash.1 (lt_irrefl 0)
  | ok params =>
      have flag : Chaos.valueOf params "worker_crash_after" = crashFlag paramPrefix before :=
        valueOf_crashFlag seen
      exact Chaos.maybeCrash_of_off ok (by rw [flag]; exact off) processed

/-- The handler turns to a record by asking for the time that is left. -/
theorem handleRecords_asks {answers : (request : Request) → World → request.Answer → World → Prop}
    {chaos : Chaos} {n : Nat} {failures : List String} {result : Except Exn (List String)}
    {s s' : World × List (Occurrence World Request.Answer)} (some_ : records ≠ [])
    (run : Exec (Recorded answers) (Unrecorded env) (handleRecords rt settings chaos n failures records)
      s result s') :
    ∃ first rest, s'.2 = s.2 ++ first :: rest ∧ first.request = .remainingTime := by
  cases records with
  | nil => exact absurd rfl some_
  | cons record others =>
      obtain ⟨late, s₁, asks, rest⟩ := Exec.of_bind run
      obtain ⟨w₁, left, w₂, -, -, returned⟩ := Exec.first_recorded asks
      obtain ⟨meanwhile, asked⟩ := Exec.record_grows returned
      obtain ⟨later, grown⟩ := Exec.record_grows rest
      rw [asked, List.append_assoc, List.append_assoc] at grown
      exact ⟨_, _, grown, rfl⟩

/-- For every pair of stored texts, every answer of SSM and every batch: the flags load,
the handler reaches its first record, and a `worker_crash_after` that is off crashes
no invocation, if and only if SSM failed or the text of `worker_crash_after` is not
that of an infinity, of a NaN or of a number beyond every double. -/
theorem chaos_stops_nothing_iff {w w' : World} {past : List (Occurrence World Request.Answer)}
    {result : Except Exn (List String)}
    (run : Exec (Recorded (Stored S)) (Unrecorded env) (handler rt settings records) (w, []) result
      (w', past)) :
    ∃ before reply after later,
      past = ⟨before, .getParameters (flagNames settings.paramPrefix), reply, after⟩ :: later ∧
        ((∃ chaos, StopsNothing S env settings.paramPrefix records before reply after later chaos) ↔
          (∃ message, reply = .error message) ∨
            ∀ text, crashFlag settings.paramPrefix before = some text → ¬ NotFinite text) := by
  obtain ⟨flags, s₁, loads, rest⟩ := Exec.of_bind run
  rw [load_eq] at loads
  obtain ⟨before, reply, after, -, answered, returned⟩ := Exec.first_recorded loads
  obtain ⟨rfl, rfl⟩ := Exec.of_ret returned
  obtain ⟨later, grown⟩ := Exec.record_grows rest
  refine ⟨before, reply, after, later, grown, ?_⟩
  rw [← loaded_ok_iff answered.2]
  constructor
  · rintro ⟨chaos, stops⟩
    exact ⟨chaos, (loaded_of_traced stops.loads).symm⟩
  · rintro ⟨chaos, ok⟩
    refine ⟨chaos, ?_, fun some_ => ?_, spares_of_loaded answered.2 ok⟩
    · rw [load_eq, ← ok]
      exact .call .refl answered .ret
    · rw [ok] at rest
      obtain ⟨first, others, grown', asks⟩ := handleRecords_asks some_ rest
      have same : later = first :: others := List.append_cancel_left (grown.symm.trans grown')
      exact ⟨first, others, same, asks⟩

end Runs

/-! ### Two texts of `worker_crash_after` -/

/-- Nothing but this text of `worker_crash_after` is stored. -/
def flagged (text : String) : World :=
  { World.empty with
    parameters := fun name => if name = "/relay/chaos/worker_crash_after" then some text else none }

/-- What SSM shows of it. -/
def shown (text : String) : Except String (List (String × String)) :=
  .ok [("/relay/chaos/worker_crash_after", text)]

theorem shown_answers (S : Services) (text : String) :
    Stored S (.getParameters (flagNames "/relay")) (flagged text) (shown text) (flagged text) := by
  refine ⟨rfl, fun name value => ?_⟩
  have own : "/relay" ++ "/chaos/worker_crash_after" = "/relay/chaos/worker_crash_after" := by decide
  simp only [Prod.mk.injEq, flagNames, flagged, own, List.mem_cons, List.not_mem_nil, or_false]
  constructor
  · rintro ⟨rfl, rfl⟩
    exact ⟨.inr rfl, if_pos rfl⟩
  · rintro ⟨-, stored⟩
    split at stored
    · rename_i same
      exact ⟨same, (Option.some.inj stored).symm⟩
    · cases stored

/-- A batch of one message. -/
def oneRecord : List Record := [⟨"m1", ⟨"m1", 1⟩, "\x7b\x7d", some 1, [], .main⟩]

theorem load_run {S : Services} {env : World → World → Prop} (text : String) :
    Exec (Recorded (Stored S)) (Unrecorded env) (Chaos.load "/relay") (flagged text, [])
      (loaded (shown text))
      (flagged text, [⟨flagged text, .getParameters (flagNames "/relay"), shown text, flagged text⟩]) := by
  rw [load_eq]
  exact .call .refl ⟨shown_answers S text, rfl⟩ .ret

/-- With `worker_crash_after` at `inf`, the invocation dies before its first record. -/
theorem chaos_stops_at_inf :
    ∃ past w', Exec (Recorded (Stored ⟨fun _ => 0⟩)) (Unrecorded fun _ _ => False)
        (handler ⟨fun _ => true, 1000⟩ ⟨"/relay", 60, 900, 5000⟩ oneRecord) (flagged "inf", [])
        (.error (.other "OverflowError" "cannot convert float infinity to integer")) (w', past) ∧
      ¬ ∃ before reply after later chaos,
        past = ⟨before, .getParameters (flagNames "/relay"), reply, after⟩ :: later ∧
          StopsNothing ⟨fun _ => 0⟩ (fun _ _ => False) "/relay" oneRecord before reply after later chaos := by
  have refused : loaded (shown "inf") =
      .error (.other "OverflowError" "cannot convert float infinity to integer") := by
    with_unfolding_all rfl
  have loads := @load_run ⟨fun _ => 0⟩ (fun _ _ => False) "inf"
  rw [refused] at loads
  refine ⟨_, _, loads.bind .ret, ?_⟩
  rintro ⟨before, reply, after, later, chaos, same, stops⟩
  cases same
  exact nomatch refused.symm.trans (loaded_of_traced stops.loads).symm

/-- A negative number is off, and the handler goes on to its first record. -/
theorem chaos_stops_nothing_negative :
    ∃ past w', Exec (Recorded (Stored ⟨fun _ => 0⟩)) (Unrecorded fun _ _ => False)
        (handler ⟨fun _ => true, 1000⟩ ⟨"/relay", 60, 900, 5000⟩ oneRecord) (flagged "-1", [])
        (.ok ["m1"]) (w', past) ∧
      ∃ before reply after later chaos,
        past = ⟨before, .getParameters (flagNames "/relay"), reply, after⟩ :: later ∧
          StopsNothing ⟨fun _ => 0⟩ (fun _ _ => False) "/relay" oneRecord before reply after later chaos := by
  have finite : ¬ NotFinite "-1" := by
    have parsed : floatText? "-1".toList = some (.finite ⟨true, 1, 0⟩) := by decide
    have one : 1 < halfway := one_lt_mul_of_lt_of_le (by norm_num) (one_le_zpow₀ (by norm_num) (by norm_num))
    simp only [NotFinite, parsed, not_le]
    simpa [Dec.value] using one
  have stored : ∀ text, crashFlag "/relay" (flagged "-1") = some text → ¬ NotFinite text := by
    rintro text same
    cases Option.some.inj same
    exact finite
  obtain ⟨chaos, ok⟩ := (loaded_ok_iff (shown_answers ⟨fun _ => 0⟩ "-1").2).mpr (.inr stored)
  have loads := @load_run ⟨fun _ => 0⟩ (fun _ _ => False) "-1"
  rw [ok] at loads
  -- No time is left, so the message is handed back.
  have late : ∀ past, Recorded (Stored ⟨fun _ => 0⟩) .remainingTime (flagged "-1", past) (some 0 : Option Int)
      (flagged "-1", past ++ [⟨flagged "-1", .remainingTime, (some 0 : Option Int), flagged "-1"⟩]) :=
    fun _ => ⟨⟨rfl, trivial⟩, rfl⟩
  have asks : ∀ past, Exec (Recorded (Stored ⟨fun _ => 0⟩)) (Unrecorded fun _ _ => False)
      (outOfTime ⟨"/relay", 60, 900, 5000⟩) (flagged "-1", past) true (flagged "-1", _) :=
    fun past => .call .refl (late past) .ret
  have run : Exec (Recorded (Stored ⟨fun _ => 0⟩)) (Unrecorded fun _ _ => False)
      (handler ⟨fun _ => true, 1000⟩ ⟨"/relay", 60, 900, 5000⟩ oneRecord) (flagged "-1", []) (.ok ["m1"])
      (flagged "-1", _) := loads.bind ((asks _).bind .ret)
  obtain ⟨before, reply, after, later, same, stops⟩ := chaos_stops_nothing_iff run
  refine ⟨_, _, run, before, reply, after, later, ?_⟩
  cases same
  obtain ⟨chaos, stops⟩ := stops.mpr (.inr stored)
  exact ⟨chaos, rfl, stops⟩

end Relay.Worker
