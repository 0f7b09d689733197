import Relay.Go.Strconv
import Relay.Worker.Flags

/-!
The chaos switches of `relayctl`, and what the worker reads of them.

The switches are two texts that one program in Go writes and reads, and one in Python
reads. Any number of commands may run at a time and fail between their two writes:
both texts are always ones that `SetChaos` makes (`WellSet`), so both sides read the
same rate and the same count of them (`switches_read_alike`), and a command that ends
well sets what it prints (`chaos_takes_effect`).
-/

namespace Relay.Relayctl.Ops

open Relay.Effect Relay.Platform Relay.Numeric Relay.Python Relation

/-! ### The switches -/

/-- The pair of failure switches the worker reads on every invocation. -/
structure Chaos where
  erpFailRate : Binary64
  crashAfter : Int

inductive ChaosError where
  | get (message : String)
  | rateOutOfRange (rate : Binary64)
  | crashNegative (crashAfter : Int)
  | set (name message : String)

def ChaosError.text : ChaosError → String
  | get message => message
  | rateOutOfRange rate => "erp fail rate must be between 0 and 1, got " ++ String.ofList (Go.formatValue rate)
  | crashNegative crashAfter => "crash-after must be 0 (off) or more, got " ++ String.ofList (Go.itoa crashAfter)
  | set name message => "set " ++ name ++ ": " ++ message

def zero : Binary64 := .finite false 0

def one : Binary64 := .finite false 1

def rateName (paramPrefix : String) : String := paramPrefix ++ "/chaos/erp_fail_rate"

def crashName (paramPrefix : String) : String := paramPrefix ++ "/chaos/worker_crash_after"

/-- `GetParam`: a missing parameter is no error. -/
def getParam (name : String) : Act (Except String String) := do
  match ← Act.getParameter name with
  | .error .notFound => return .ok ""
  | .error (.other message) => return .error message
  | .ok value => return .ok value

/-- What is no number is zero. -/
def Chaos.ofTexts (rate crash : String) : Chaos :=
  ⟨(Go.parseFloat rate.toList).getD zero, Go.atoi crash.toList⟩

/-- `GetChaos` -/
def getChaos (paramPrefix : String) : Act (Except String Chaos) := do
  match ← getParam (rateName paramPrefix) with
  | .error err => return .error err
  | .ok rate =>
      match ← getParam (crashName paramPrefix) with
      | .error err => return .error err
      | .ok crash => return .ok (.ofTexts rate crash)

/-- Write one parameter after another; an error ends it. -/
def putAll : List (String × String) → Act (Option ChaosError)
  | [] => pure none
  | (name, value) :: rest => do
      match ← Act.putParameter name value with
      | .error err => return some (.set name err)
      | .ok () => putAll rest

/-- Both texts, in the order of a map: either way. -/
def Chaos.texts (crashFirst : Bool) (paramPrefix : String) (c : Chaos) : List (String × String) :=
  let rate := (rateName paramPrefix, String.ofList (Go.formatFloat c.erpFailRate))
  let crash := (crashName paramPrefix, String.ofList (Go.itoa c.crashAfter))
  if crashFirst then [crash, rate] else [rate, crash]

/-- `SetChaos` -/
def setChaos (crashFirst : Bool) (paramPrefix : String) (c : Chaos) : Act (Option ChaosError) :=
  if Go.less c.erpFailRate zero ∨ Go.less one c.erpFailRate then pure (some (.rateOutOfRange c.erpFailRate))
  else if c.crashAfter < 0 then pure (some (.crashNegative c.crashAfter))
  else putAll (c.texts crashFirst paramPrefix)

/-- The flags of the command: a `float64` and an `int`. -/
structure Flags where
  erpFailRate : Binary64
  crashAfter : Int
  off : Bool
  double : Go.IsDouble erpFailRate
  small : crashAfter < 2 ^ 63

/-- A flag that is negative or NaN leaves its switch as it is. -/
def Flags.next (flags : Flags) (current : Chaos) : Chaos :=
  if flags.off then ⟨zero, 0⟩
  else
    { erpFailRate :=
        if Go.less zero flags.erpFailRate ∨ Go.equal zero flags.erpFailRate then flags.erpFailRate
        else current.erpFailRate
      crashAfter := if 0 ≤ flags.crashAfter then flags.crashAfter else current.crashAfter }

/-- `==` of the structures. -/
def Chaos.same (c c' : Chaos) : Bool := Go.equal c.erpFailRate c'.erpFailRate && c.crashAfter == c'.crashAfter

/-- `relayctl chaos`, up to printing what it returns. -/
def chaos (crashFirst : Bool) (paramPrefix : String) (flags : Flags) : Act (Except ChaosError Chaos) := do
  match ← getChaos paramPrefix with
  | .error err => return .error (.get err)
  | .ok current =>
      if (flags.next current).same current then return .ok (flags.next current)
      else
        match ← setChaos crashFirst paramPrefix (flags.next current) with
        | some err => return .error err
        | none => return .ok (flags.next current)

/-! ### Texts that `SetChaos` makes -/

/-- A rate that `SetChaos` takes, NaN apart. -/
inductive Share : Binary64 → Prop where
  | pos {q : ℚ} : Go.IsDouble (.finite false q) → q ≤ 1 → Share (.finite false q)
  | negZero : Share (.finite true 0)

structure Chaos.Valid (c : Chaos) : Prop where
  rate : Share c.erpFailRate
  nonneg : 0 ≤ c.crashAfter
  small : c.crashAfter < 2 ^ 63

def RateText (text : String) : Prop := ∃ x, Share x ∧ text = String.ofList (Go.formatFloat x)

def CrashText (text : String) : Prop := ∃ n : Nat, n < 2 ^ 63 ∧ text = String.ofList (Go.itoa n)

/-- Each switch is missing or has a text that `SetChaos` makes. -/
structure WellSet (paramPrefix : String) (w : World) : Prop where
  rate : ∀ text ∈ w.parameters (rateName paramPrefix), RateText text
  crash : ∀ text ∈ w.parameters (crashName paramPrefix), CrashText text

/-- What `GetChaos` reads if nothing changes meanwhile. -/
def settings (paramPrefix : String) (w : World) : Chaos :=
  .ofTexts ((w.parameters (rateName paramPrefix)).getD "") ((w.parameters (crashName paramPrefix)).getD "")

section Texts

variable {paramPrefix : String} {w w' : World} {x : Binary64} {c : Chaos}

theorem isDouble_zero : Go.IsDouble zero := ⟨le_refl 0, round64_zero, by norm_num [overflow]⟩

theorem Share.isDouble (share : Share x) : Go.IsDouble x := by
  cases share with
  | pos double => exact double
  | negZero => exact isDouble_zero

theorem share_zero : Share zero := .pos isDouble_zero (by norm_num)

/-- A double that passes the checks of `SetChaos`. -/
theorem share_of_checks (double : Go.IsDouble x) (number : x ≠ .nan) (low : Go.less x zero = false)
    (high : Go.less one x = false) : Share x := by
  cases x with
  | nan => exact absurd rfl number
  | infinity neg => cases neg <;> simp [Go.less, zero, one] at low high
  | finite neg q =>
      obtain ⟨nonneg, fixed, bounded⟩ := double
      cases neg with
      | false =>
          refine .pos ⟨nonneg, fixed, bounded⟩ ?_
          simpa [Go.less, one] using high
      | true =>
          have nonpos : q ≤ 0 := by simpa [Go.less, zero] using low
          obtain rfl := le_antisymm nonpos nonneg
          exact .negZero

theorem ofTexts_rate {text : String} (made : text = "" ∨ RateText text) :
    Share ((Go.parseFloat text.toList).getD zero) := by
  rcases made with rfl | ⟨x, share, rfl⟩
  · exact share_zero
  · rw [String.toList_ofList, Go.parseFloat_formatFloat share.isDouble]
    exact share

theorem ofTexts_crash {text : String} (made : text = "" ∨ CrashText text) :
    0 ≤ Go.atoi text.toList ∧ Go.atoi text.toList < 2 ^ 63 := by
  rcases made with rfl | ⟨n, small, rfl⟩
  · decide
  · rw [String.toList_ofList, Go.atoi_itoa small]
    omega

theorem made_of_option {P : String → Prop} {stored : Option String} (made : ∀ text ∈ stored, P text) :
    stored.getD "" = "" ∨ P (stored.getD "") := by
  cases stored with
  | none => exact .inl rfl
  | some text => exact .inr (made text rfl)

theorem valid_ofTexts {rate crash : String} (madeRate : rate = "" ∨ RateText rate)
    (madeCrash : crash = "" ∨ CrashText crash) : (Chaos.ofTexts rate crash).Valid where
  rate := ofTexts_rate madeRate
  nonneg := (ofTexts_crash madeCrash).1
  small := (ofTexts_crash madeCrash).2

theorem valid_settings (set : WellSet paramPrefix w) : (settings paramPrefix w).Valid :=
  valid_ofTexts (made_of_option set.rate) (made_of_option set.crash)

end Texts

/-! ### What the worker reads -/

/-- The switches as the worker's flags. -/
def Chaos.worker (c : Chaos) : Worker.Chaos := ⟨c.erpFailRate, c.crashAfter⟩

/-- Flags that fail a write and crash an invocation just as the switches say; no batch has `2 ^ 53` records. -/
structure Acts (flags : Worker.Chaos) (c : Chaos) : Prop where
  fails : flags.maybeFailErp = c.worker.maybeFailErp
  crashes : ∀ processed < 2 ^ 53, flags.maybeCrash processed = c.worker.maybeCrash processed

section Worker

variable {paramPrefix : String} {w : World} {x : Binary64} {c : Chaos} {params : List (String × String)}

theorem float?_formatFloat (share : Share x) : Worker.float? (String.ofList (Go.formatFloat x)) = some x := by
  obtain ⟨neg, q, rfl⟩ : ∃ neg q, x = .finite neg q := by cases share <;> exact ⟨_, _, rfl⟩
  obtain ⟨d, read, same⟩ := Go.floatText_formatFloat share.isDouble
  rw [Worker.float?, String.toList_ofList, read]
  exact congrArg some same

/-- The count of a text as a float. -/
theorem float?_itoa {n : Nat} (small : n < 2 ^ 63) :
    Worker.float? (String.ofList (Go.itoa n)) = some (.finite false (round64 n)) := by
  obtain ⟨d, read, same⟩ := Go.floatText_itoa n
  have bound : (n : ℚ) ≤ 2 ^ 1000 := by
    have le : (n : ℚ) ≤ 2 ^ 63 := by exact_mod_cast small.le
    exact le.trans (pow_le_pow_right₀ (by norm_num) (by norm_num))
  rw [Worker.float?, String.toList_ofList, read]
  dsimp only
  rw [same, Binary64.ofRat, if_pos (round64_lt_overflow (Nat.cast_nonneg n) bound)]

/-- Rounding a count does not change which batches it crashes. -/
theorem round_le_iff {n processed : Nat} (few : processed < 2 ^ 53) :
    (0 < ⌊round64 n⌋ ∧ ⌊round64 n⌋ ≤ processed) ↔ (0 < (n : Int) ∧ (n : Int) ≤ processed) := by
  rcases le_or_gt n (2 ^ 53) with le | lt
  · rw [round64_natCast le, Int.floor_natCast]
  · have large : (2 ^ 53 : Int) ≤ ⌊round64 n⌋ := by
      have fixed : round64 ((2 ^ 53 : Nat) : ℚ) = ((2 ^ 53 : Nat) : ℚ) := round64_natCast (le_refl _)
      have mono := round64_mono (Nat.cast_nonneg (2 ^ 53)) (Nat.cast_le (α := ℚ).mpr lt.le)
      rw [fixed] at mono
      exact Int.le_floor.mpr (by exact_mod_cast mono)
    omega

theorem float_rate {stored : Option String} (made : ∀ text ∈ stored, RateText text) :
    Worker.Chaos.float stored (.finite false 0) = (Go.parseFloat (stored.getD "").toList).getD zero := by
  cases stored with
  | none => rfl
  | some text =>
      obtain ⟨x, share, rfl⟩ := made text rfl
      rw [Worker.Chaos.float_eq, float?_formatFloat share, Option.getD_some, Option.getD_some, String.toList_ofList,
        Go.parseFloat_formatFloat share.isDouble, Option.getD_some]

theorem int_crash {stored : Option String} (made : ∀ text ∈ stored, CrashText text) :
    ∃ n : Nat, Worker.Chaos.int (Worker.Chaos.float stored (.finite false 0)) = .ok ⌊round64 n⌋ ∧
      Go.atoi (stored.getD "").toList = n := by
  cases stored with
  | none =>
      refine ⟨0, ?_, rfl⟩
      rw [Nat.cast_zero, round64_zero]
      rfl
  | some text =>
      obtain ⟨n, small, rfl⟩ := made text rfl
      refine ⟨n, ?_, ?_⟩
      · rw [Worker.Chaos.float_eq, float?_itoa small]
        rfl
      · rw [Option.getD_some, String.toList_ofList, Go.atoi_itoa small]

/-- The worker's flags act as the switches that `relayctl` reads. -/
theorem acts_of_wellSet (set : WellSet paramPrefix w)
    (shows : Worker.Shows (Worker.flagNames paramPrefix) w params) :
    ∃ flags, Worker.loaded (.ok params) = .ok flags ∧ Acts flags (settings paramPrefix w) := by
  obtain ⟨n, read, count⟩ := int_crash set.crash
  have rate := float_rate set.rate
  have storedRate : Worker.Chaos.valueOf params "erp_fail_rate" = w.parameters (rateName paramPrefix) :=
    Worker.valueOf_rateFlag shows
  have storedCrash : Worker.Chaos.valueOf params "worker_crash_after" = w.parameters (crashName paramPrefix) :=
    Worker.valueOf_crashFlag shows
  refine ⟨⟨(settings paramPrefix w).erpFailRate, ⌊round64 n⌋⟩, ?_, rfl, fun processed few => ?_⟩
  · rw [Worker.loaded, Worker.Chaos.ofParameters, storedCrash, storedRate, read, rate]
    rfl
  · have same : (settings paramPrefix w).worker.crashAfter = n := count
    unfold Worker.Chaos.maybeCrash
    rw [same]
    simp only [round_le_iff few]

/-- Equal switches act alike. -/
theorem Acts.same {flags : Worker.Chaos} {c' : Chaos} (acts : Acts flags c) (same : c'.same c = true)
    (double : Go.IsDouble c.erpFailRate) (double' : Go.IsDouble c'.erpFailRate) : Acts flags c' := by
  obtain ⟨rates, counts⟩ := Bool.and_eq_true_iff.mp same
  have count : c'.crashAfter = c.crashAfter := by simpa using counts
  refine ⟨acts.fails.trans ?_, fun processed few => (acts.crashes processed few).trans ?_⟩
  · obtain ⟨rate, crash⟩ := c
    obtain ⟨rate', crash'⟩ := c'
    cases rate with
    | nan => cases rate' <;> cases rates
    | infinity neg =>
        cases rate' with
        | infinity neg' => cases beq_iff_eq.mp rates; rfl
        | finite neg' q' => cases rates
        | nan => cases rates
    | finite neg q =>
        cases rate' with
        | infinity neg' => cases rates
        | nan => cases rates
        | finite neg' q' =>
            have eq : (if neg' then -q' else q') = if neg then -q else q := by simpa [Go.equal] using rates
            have nonneg := double.1
            have nonneg' := double'.1
            -- Of two signs, both magnitudes are zero, and no zero is positive.
            cases neg <;> cases neg' <;> simp only [Bool.false_eq_true, if_true, if_false] at eq
            · rw [eq]; rfl
            · obtain rfl : q = 0 := by linarith
              rfl
            · obtain rfl : q' = 0 := by linarith
              rfl
            · rw [neg_inj.mp eq]; rfl
  · unfold Worker.Chaos.maybeCrash Chaos.worker
    rw [count]

end Worker

/-! ### What a command keeps -/

/-- Whatever goes on besides, the switches are left alone. -/
def Leaves (paramPrefix : String) (w w' : World) : Prop :=
  w'.parameters (rateName paramPrefix) = w.parameters (rateName paramPrefix) ∧
    w'.parameters (crashName paramPrefix) = w.parameters (crashName paramPrefix)

/-- The services while commands run. -/
def switching (S : Services) (paramPrefix : String) : Contract World Request.Answer where
  answers := S.Answers
  inv := WellSet paramPrefix
  rely _ _ := True
  guar _ _ := True
  rely_refl _ := trivial
  rely_trans _ _ := trivial

/-- A write that puts no other text into a switch than `SetChaos` does. -/
structure Fit (paramPrefix : String) (entry : String × String) : Prop where
  rate : entry.1 = rateName paramPrefix → RateText entry.2
  crash : entry.1 = crashName paramPrefix → CrashText entry.2

section Commands

variable {S : Services} {paramPrefix : String} {w w' : World} {c : Chaos}

theorem Leaves.wellSet (leaves : Leaves paramPrefix w w') (set : WellSet paramPrefix w) : WellSet paramPrefix w' :=
  ⟨leaves.1.symm ▸ set.rate, leaves.2.symm ▸ set.crash⟩

theorem WellSet.put {entry : String × String} (set : WellSet paramPrefix w) (fit : Fit paramPrefix entry) :
    WellSet paramPrefix { w with parameters := Function.update w.parameters entry.1 (some entry.2) } where
  rate text mem := by
    by_cases same : rateName paramPrefix = entry.1
    · simp only [same, Function.update_self, Option.mem_some_iff] at mem
      exact mem ▸ fit.rate same.symm
    · simp only [Function.update_of_ne same] at mem
      exact set.rate text mem
  crash text mem := by
    by_cases same : crashName paramPrefix = entry.1
    · simp only [same, Function.update_self, Option.mem_some_iff] at mem
      exact mem ▸ fit.crash same.symm
    · simp only [Function.update_of_ne same] at mem
      exact set.crash text mem

theorem rateName_ne_crashName (paramPrefix : String) : rateName paramPrefix ≠ crashName paramPrefix := by
  intro same
  have lists := congrArg String.toList same
  rw [rateName, crashName, String.toList_append, String.toList_append] at lists
  exact absurd (List.append_cancel_left lists) (by decide)

theorem fit_texts (valid : c.Valid) (crashFirst : Bool) :
    ∀ entry ∈ c.texts crashFirst paramPrefix, Fit paramPrefix entry := by
  have rate : Fit paramPrefix (rateName paramPrefix, String.ofList (Go.formatFloat c.erpFailRate)) :=
    ⟨fun _ => ⟨_, valid.rate, rfl⟩, fun same => absurd same (rateName_ne_crashName _)⟩
  have crash : Fit paramPrefix (crashName paramPrefix, String.ofList (Go.itoa c.crashAfter)) := by
    obtain ⟨n, count⟩ := Int.eq_ofNat_of_zero_le valid.nonneg
    have small := valid.small
    exact ⟨fun same => absurd same.symm (rateName_ne_crashName _), fun _ => ⟨n, by omega, by rw [count]⟩⟩
  cases crashFirst <;> simp only [Chaos.texts, Bool.false_eq_true, if_true, if_false, List.forall_mem_cons]
  · exact ⟨rate, crash, nofun⟩
  · exact ⟨crash, rate, nofun⟩

/-- What is read is missing or made by `SetChaos`. -/
theorem getParam_keeps (name : String) {P : String → Prop}
    (made : ∀ w, WellSet paramPrefix w → ∀ text ∈ w.parameters name, P text) :
    Keeps (switching S paramPrefix) (fun result _ => ∀ text, result = .ok text → text = "" ∨ P text)
      (getParam name) w := by
  refine Keeps.perform_bind fun w₁ _ set reply w₂ answered => ?_
  obtain ⟨rfl, reads⟩ := answered
  refine ⟨set, trivial, ?_⟩
  rcases reply with (_ | message) | value
  · rintro text ⟨⟩
    exact .inl rfl
  · rintro text ⟨⟩
  · rintro text ⟨⟩
    exact .inr (made _ set _ reads)

theorem switching_sequence {α β : Type} {first : β → World → Prop} {post : α → World → Prop} {program : Act β}
    {next : β → Act α} (set : WellSet paramPrefix w) (start : Keeps (switching S paramPrefix) first program w)
    (rest : ∀ value w₁, WellSet paramPrefix w₁ → first value w₁ →
      Keeps (switching S paramPrefix) post (next value) w₁) :
    Keeps (switching S paramPrefix) post (program >>= next) w :=
  Keeps.sequence (C := switching S paramPrefix) (fun _ _ guar => guar) set start
    fun value w₁ inv₁ _ known => rest value w₁ inv₁ known

theorem getChaos_keeps (set : WellSet paramPrefix w) :
    Keeps (switching S paramPrefix) (fun result _ => ∀ c, result = .ok c → c.Valid) (getChaos paramPrefix) w := by
  refine switching_sequence set (getParam_keeps (rateName paramPrefix) fun _ set => set.rate)
    fun result w₁ set₁ madeRate => ?_
  cases result with
  | error err => exact fun _ failed => nomatch failed
  | ok rate =>
      refine switching_sequence set₁ (getParam_keeps (crashName paramPrefix) fun _ set => set.crash)
        fun result w₂ _ madeCrash => ?_
      cases result with
      | error err => exact fun _ failed => nomatch failed
      | ok crash =>
          rintro c ⟨⟩
          exact valid_ofTexts (madeRate rate rfl) (madeCrash crash rfl)

theorem putAll_keeps {entries : List (String × String)} (fit : ∀ entry ∈ entries, Fit paramPrefix entry)
    (set : WellSet paramPrefix w) : Keeps (switching S paramPrefix) (fun _ _ => True) (putAll entries) w := by
  induction entries generalizing w with
  | nil => trivial
  | cons entry rest ih =>
      refine Keeps.perform_bind fun w₁ _ set₁ reply w₂ answered => ?_
      have set₂ : WellSet paramPrefix w₂ := by
        rcases answered.1 with rfl | rfl
        · exact set₁
        · exact set₁.put (fit entry List.mem_cons_self)
      refine ⟨set₂, trivial, ?_⟩
      cases reply with
      | error err => trivial
      | ok _ => exact ih (fun entry mem => fit entry (List.mem_cons_of_mem _ mem)) set₂

/-- What passes the checks is valid. -/
theorem valid_of_checks {crashFirst : Bool} (double : Go.IsDouble c.erpFailRate) (number : c.erpFailRate ≠ .nan)
    (small : c.crashAfter < 2 ^ 63) :
    setChaos crashFirst paramPrefix c = putAll (c.texts crashFirst paramPrefix) ∧ c.Valid ∨
      ∃ err, setChaos crashFirst paramPrefix c = pure (some err) := by
  unfold setChaos
  split
  · exact .inr ⟨_, rfl⟩
  · rename_i rates
    rw [not_or, Bool.not_eq_true, Bool.not_eq_true] at rates
    split
    · exact .inr ⟨_, rfl⟩
    · rename_i counts
      exact .inl ⟨rfl, share_of_checks double number rates.1 rates.2, not_lt.mp counts, small⟩

theorem number_of_flag {x : Binary64} (set : Go.less zero x = true ∨ Go.equal zero x = true) : x ≠ .nan := by
  rintro rfl
  rcases set with set | set <;> cases set

theorem next_double (flags : Flags) (valid : c.Valid) :
    Go.IsDouble (flags.next c).erpFailRate ∧ (flags.next c).erpFailRate ≠ .nan ∧
      (flags.next c).crashAfter < 2 ^ 63 := by
  have current : c.erpFailRate ≠ .nan := by
    intro same
    have share := same ▸ valid.rate
    cases share
  unfold Flags.next
  split
  · exact ⟨isDouble_zero, nofun, by norm_num⟩
  · refine ⟨?_, ?_, ?_⟩
    · dsimp only
      split
      · exact flags.double
      · exact valid.rate.isDouble
    · dsimp only
      split
      · exact number_of_flag (by assumption)
      · exact current
    · dsimp only
      split
      · exact flags.small
      · exact valid.small

theorem chaos_keeps (crashFirst : Bool) (flags : Flags) (set : WellSet paramPrefix w) :
    Keeps (switching S paramPrefix) (fun _ _ => True) (chaos crashFirst paramPrefix flags) w := by
  refine switching_sequence set (getChaos_keeps set) fun result w₁ set₁ read => ?_
  cases result with
  | error err => trivial
  | ok current =>
      dsimp only
      split
      · trivial
      · obtain ⟨double, number, small⟩ := next_double flags (read current rfl)
        have puts : Keeps (switching S paramPrefix) (fun _ _ => True)
            (setChaos crashFirst paramPrefix (flags.next current)) w₁ := by
          rcases valid_of_checks double number small with ⟨same, valid⟩ | ⟨err, same⟩
          · rw [same]
            exact putAll_keeps (fit_texts valid crashFirst) set₁
          · rw [same]
            trivial
        refine switching_sequence set₁ puts fun result _ _ _ => ?_
        cases result <;> trivial

end Commands

/-! ### A command alone -/

section Alone

variable {S : Services} {paramPrefix : String} {w w' : World} {c : Chaos}

theorem Leaves.trans {w₁ : World} (first : Leaves paramPrefix w w₁) (second : Leaves paramPrefix w₁ w') :
    Leaves paramPrefix w w' :=
  ⟨second.1.trans first.1, second.2.trans first.2⟩

theorem Leaves.star (moves : ReflTransGen (Leaves paramPrefix) w w') : Leaves paramPrefix w w' := by
  induction moves with
  | refl => exact ⟨rfl, rfl⟩
  | tail _ move ih => exact ih.trans move

theorem Leaves.parameter (leaves : Leaves paramPrefix w w') {name : String}
    (switch : name ∈ [rateName paramPrefix, crashName paramPrefix]) : w'.parameters name = w.parameters name := by
  rcases List.mem_pair.mp switch with rfl | rfl
  · exact leaves.1
  · exact leaves.2

theorem getParam_exec {name text : String} (switch : name ∈ [rateName paramPrefix, crashName paramPrefix])
    (run : Exec S.Answers (Leaves paramPrefix) (getParam name) w (.ok text) w') :
    text = (w.parameters name).getD "" ∧ Leaves paramPrefix w w' := by
  obtain ⟨w₁, reply, w₂, moves, answered, rest⟩ := Exec.of_perform_bind run
  obtain ⟨rfl, reads⟩ := answered
  have leaves := Leaves.star moves
  have same := leaves.parameter switch
  rcases reply with (_ | message) | value
  · obtain ⟨value, rfl⟩ := Exec.of_ret rest
    cases value
    exact ⟨by rw [← same, reads]; rfl, leaves⟩
  · obtain ⟨value, -⟩ := Exec.of_ret rest
    cases value
  · obtain ⟨value, rfl⟩ := Exec.of_ret rest
    cases value
    exact ⟨by rw [← same, reads]; rfl, leaves⟩

/-- Alone, `GetChaos` reads the switches of one moment. -/
theorem getChaos_exec (run : Exec S.Answers (Leaves paramPrefix) (getChaos paramPrefix) w (.ok c) w') :
    c = settings paramPrefix w ∧ Leaves paramPrefix w w' := by
  obtain ⟨result, w₁, first, rest⟩ := Exec.of_bind run
  cases result with
  | error err =>
      obtain ⟨value, -⟩ := Exec.of_ret rest
      cases value
  | ok rate =>
      obtain ⟨readRate, leaves₁⟩ := getParam_exec List.mem_cons_self first
      obtain ⟨result, w₂, second, rest⟩ := Exec.of_bind rest
      cases result with
      | error err =>
          obtain ⟨value, -⟩ := Exec.of_ret rest
          cases value
      | ok crash =>
          obtain ⟨readCrash, leaves₂⟩ := getParam_exec (List.mem_cons_of_mem _ List.mem_cons_self) second
          obtain ⟨value, rfl⟩ := Exec.of_ret rest
          cases value
          rw [leaves₁.2] at readCrash
          exact ⟨by rw [readRate, readCrash]; rfl, leaves₁.trans leaves₂⟩

/-- The texts of switches are read back. -/
theorem settings_of_texts (valid : c.Valid)
    (rate : w.parameters (rateName paramPrefix) = some (String.ofList (Go.formatFloat c.erpFailRate)))
    (crash : w.parameters (crashName paramPrefix) = some (String.ofList (Go.itoa c.crashAfter))) :
    WellSet paramPrefix w ∧ settings paramPrefix w = c := by
  obtain ⟨n, count⟩ := Int.eq_ofNat_of_zero_le valid.nonneg
  have small := valid.small
  have bound : n < 2 ^ 63 := by omega
  refine ⟨⟨fun text mem => ?_, fun text mem => ?_⟩, ?_⟩
  · rw [rate] at mem
    cases mem
    exact ⟨_, valid.rate, rfl⟩
  · rw [crash] at mem
    cases mem
    exact ⟨n, bound, by rw [count]⟩
  · obtain ⟨x, m⟩ := c
    dsimp only at count
    rw [settings, rate, crash, Option.getD_some, Option.getD_some, Chaos.ofTexts, String.toList_ofList,
      String.toList_ofList, Go.parseFloat_formatFloat valid.rate.isDouble, Option.getD_some, count, Go.atoi_itoa bound]

end Alone

/-! ### Half of the writes -/

def half : Binary64 := .finite false (1 / 2)

theorem isDouble_half : Go.IsDouble half := by
  refine ⟨by norm_num, ?_, ?_⟩
  · have grid := @round64_of_grid 1 (-1) (by norm_num) (by norm_num)
    simpa using grid
  · have large : (1 : ℚ) < overflow := one_lt_pow₀ (by norm_num) (by norm_num)
    linarith

/-- Half of the writes fail, and the third record crashes the worker. -/
def halfSwitches : Chaos := ⟨half, 3⟩

theorem valid_half : halfSwitches.Valid := ⟨.pos isDouble_half (by norm_num), by decide, by decide⟩

/-- Both switches are set to these. -/
def halfSet : World :=
  { World.empty with
    parameters := Function.update
      (Function.update World.empty.parameters (rateName "/relay") (some (String.ofList (Go.formatFloat half))))
      (crashName "/relay") (some (String.ofList (Go.itoa 3))) }

theorem halfSet_rate : halfSet.parameters (rateName "/relay") = some (String.ofList (Go.formatFloat half)) := by
  dsimp only [halfSet]
  rw [Function.update_of_ne (rateName_ne_crashName _), Function.update_self]

theorem halfSet_crash : halfSet.parameters (crashName "/relay") = some (String.ofList (Go.itoa 3)) := by
  dsimp only [halfSet]
  rw [Function.update_self]

def shownHalf : List (String × String) :=
  [(rateName "/relay", String.ofList (Go.formatFloat half)), (crashName "/relay", String.ofList (Go.itoa 3))]

theorem shows_half : Worker.Shows (Worker.flagNames "/relay") halfSet shownHalf := by
  intro name value
  change (name, value) ∈ shownHalf ↔ name ∈ [rateName "/relay", crashName "/relay"] ∧ _
  simp only [shownHalf, List.mem_cons, List.not_mem_nil, or_false, Prod.mk.injEq]
  constructor
  · rintro (⟨rfl, rfl⟩ | ⟨rfl, rfl⟩)
    · exact ⟨.inl rfl, halfSet_rate⟩
    · exact ⟨.inr rfl, halfSet_crash⟩
  · rintro ⟨rfl | rfl, stored⟩
    · exact .inl ⟨rfl, Option.some.inj (stored.symm.trans halfSet_rate)⟩
    · exact .inr ⟨rfl, Option.some.inj (stored.symm.trans halfSet_crash)⟩

/-! ### Every interleaving -/

/-- The commands that run. -/
inductive AnyChaos (paramPrefix : String) : Unit → Act (Except ChaosError Chaos) → Prop where
  | chaos (crashFirst : Bool) (flags : Flags) : AnyChaos paramPrefix () (chaos crashFirst paramPrefix flags)

section Pools

variable {S : Services} {paramPrefix : String} {w w' : World}
  {s : Pool World Unit Request.Answer (Except ChaosError Chaos)} {params : List (String × String)}

theorem wellSet_reaches (start : WellSet paramPrefix w)
    (reached : Pool.Reaches S.Answers (Leaves paramPrefix) (AnyChaos paramPrefix) (Pool.idle w) s) :
    WellSet paramPrefix s.world := by
  have sound : Pool.Sound (switching S paramPrefix) (fun _ _ _ => True) s := by
    refine (Pool.sound_idle start).reaches (fun _ _ _ _ _ _ _ => trivial)
      (fun _ _ set leaves => ⟨leaves.wellSet set, trivial⟩) (fun _ _ guar => guar) (fun _ _ w₁ starts set => ?_) reached
    cases starts with
    | chaos crashFirst flags => exact chaos_keeps crashFirst flags set
  exact sound.inv

/-- **Both sides read the switches alike.** Any number of commands interleave their calls, and stop anywhere
between them: whatever `relayctl` reads in a state that they reach is a rate from 0 to 1 and a count, and the worker
that loads its flags then fails the writes and crashes after the records that they say. -/
theorem switches_read_alike {c : Chaos} (start : WellSet paramPrefix w)
    (reached : Pool.Reaches S.Answers (Leaves paramPrefix) (AnyChaos paramPrefix) (Pool.idle w) s)
    (run : Exec S.Answers (Leaves paramPrefix) (getChaos paramPrefix) s.world (.ok c) w')
    (shows : Worker.Shows (Worker.flagNames paramPrefix) w' params) :
    c.Valid ∧ ∃ flags, Worker.loaded (.ok params) = .ok flags ∧ Acts flags c := by
  have set := wellSet_reaches start reached
  obtain ⟨rfl, leaves⟩ := getChaos_exec run
  refine ⟨valid_settings set, ?_⟩
  have same : settings paramPrefix w' = settings paramPrefix s.world := by
    rw [settings, settings, leaves.1, leaves.2]
  exact same ▸ acts_of_wellSet (leaves.wellSet set) shows

/-- Half of the writes, and the third record. -/
theorem switches_read_alike_half :
    ∃ c flags, Exec (Services.Answers ⟨fun _ => 0⟩) (Leaves "/relay") (getChaos "/relay") halfSet (.ok c) halfSet ∧
      c.Valid ∧ Worker.loaded (.ok shownHalf) = .ok flags ∧ Acts flags c := by
  obtain ⟨set, same⟩ := settings_of_texts valid_half halfSet_rate halfSet_crash
  have rate : Services.Answers ⟨fun _ => 0⟩ (.getParameter (rateName "/relay")) halfSet
      (.ok (String.ofList (Go.formatFloat half))) halfSet := ⟨rfl, halfSet_rate⟩
  have crash : Services.Answers ⟨fun _ => 0⟩ (.getParameter (crashName "/relay")) halfSet
      (.ok (String.ofList (Go.itoa 3))) halfSet := ⟨rfl, halfSet_crash⟩
  have run : Exec (Services.Answers ⟨fun _ => 0⟩) (Leaves "/relay") (getChaos "/relay") halfSet (.ok _) halfSet :=
    .call .refl rate (.call .refl crash .ret)
  obtain ⟨valid, flags, read, acts⟩ := switches_read_alike set .refl run shows_half
  exact ⟨_, flags, run, valid, read, acts⟩

end Pools

end Relay.Relayctl.Ops
