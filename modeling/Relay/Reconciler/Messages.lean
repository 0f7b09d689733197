import Relay.Reconciler.Reconcile
import Relay.Reconciler.Stamps
import Relay.Worker.Messages

/-!
A re-enqueued event, as the worker reads it back.

The event goes through `json.dumps` and the worker's `parse_body`. Only the
amount changes on the way, a double into the decimal of its text, and the worker
makes the same total of both: `orderOf_message` says that a message is accepted
exactly when `to_order` accepts the event.
-/

namespace Relay.Reconciler

open Relay.Json Relay.Python Relay.Calendar Relay.Salesforce Relay.Numeric Relay.Worker Relay.Events
  Relay.Erp

/-! ### Versions -/

theorem abs_roundSigned_le {q : ℚ} {k : Nat} (fits : k ≤ 1000) (bound : |q| ≤ 2 ^ k) :
    |roundSigned q| ≤ 2 ^ k := by
  have fixed : round64 (2 ^ k) = 2 ^ k := by
    simpa using round64_of_grid (m := 1) (e := k) (by norm_num) (by omega)
  have size : |roundSigned q| = round64 |q| := by
    unfold roundSigned
    split
    · rename_i negative
      rw [abs_neg, abs_of_neg negative, abs_of_nonneg (round64_nonneg (by linarith))]
    · rename_i positive
      rw [abs_of_nonneg (not_lt.mp positive), abs_of_nonneg (round64_nonneg (not_lt.mp positive))]
  rw [size, ← fixed]
  exact round64_mono (abs_nonneg q) bound

theorem abs_truncate_le (q : ℚ) : |(truncate q : ℚ)| ≤ |q| := by
  unfold truncate
  split
  · rename_i negative
    have nonneg : (0 : ℚ) ≤ ⌊-q⌋ := by exact_mod_cast Int.floor_nonneg.mpr (by linarith)
    push_cast
    rw [abs_neg, abs_of_nonneg nonneg, abs_of_neg negative]
    exact Int.floor_le _
  · rename_i positive
    have nonneg : (0 : ℚ) ≤ ⌊q⌋ := by exact_mod_cast Int.floor_nonneg.mpr (not_lt.mp positive)
    rw [abs_of_nonneg nonneg, abs_of_nonneg (not_lt.mp positive)]
    exact Int.floor_le _

/-- A version has at most sixteen digits. -/
theorem convertible_version {stamp : Int} (inRange : InRange stamp) : Convertible (version stamp) := by
  have bound := seconds_bound inRange
  have low : -(2 ^ 60 : Int) ≤ stamp := by omega
  have high : stamp ≤ 2 ^ 60 := by omega
  have seconds : |(stamp : ℚ) / 1000000| ≤ 2 ^ 41 := by
    have low : (-(2 ^ 41 * 1000000) : Int) ≤ stamp := by omega
    have high : stamp ≤ 2 ^ 41 * 1000000 := by omega
    have low' : -(2 ^ 41 * 1000000 : ℚ) ≤ stamp := by exact_mod_cast low
    have high' : (stamp : ℚ) ≤ 2 ^ 41 * 1000000 := by exact_mod_cast high
    rw [abs_le]
    constructor
    · rw [le_div_iff₀ (by norm_num)]
      linarith
    · rw [div_le_iff₀ (by norm_num)]
      linarith
  have timestamps : |timestamp stamp| ≤ 2 ^ 41 := abs_roundSigned_le (by norm_num) seconds
  have millis : |timestamp stamp * 1000| ≤ 2 ^ 51 := by
    rw [abs_mul]
    calc |timestamp stamp| * |(1000 : ℚ)| ≤ 2 ^ 41 * 1024 := by gcongr; norm_num
      _ = 2 ^ 51 := by norm_num
  have size : |(version stamp : ℚ)| ≤ 2 ^ 51 :=
    (abs_truncate_le _).trans (abs_roundSigned_le (by norm_num) millis)
  have whole : |version stamp| ≤ 2 ^ 51 := by exact_mod_cast size
  obtain ⟨lower, upper⟩ := abs_le.mp whole
  have small : (version stamp).natAbs < 10 ^ 16 := by omega
  exact (Nat.length_toDigits_le_iff (by decide) (by decide)).mpr
    (small.trans_le (Nat.pow_le_pow_right (by decide) (by decide)))

theorem inRange_of_fromisoformat {text : List Char} {stamp : Int}
    (read : fromisoformat text = .ok stamp) : InRange stamp := by
  unfold fromisoformat at read
  split at read
  · cases read
  · split at read
    · cases read
      assumption
    · cases read

/-! ### Amounts -/

/-- A number that `json.loads` made of a document. -/
inductive Loaded : Number PyNum → Prop where
  | int {i : Int} : Convertible i → Loaded (.int i)
  | float (t : NumText) : Loaded (.num (.float (float t)))
  | nan : Loaded (.num (.float .nan))
  | infinity (neg : Bool) : Loaded (.num (.float (.infinity neg)))

theorem intValue_natAbs (t : NumText) : t.intValue.natAbs = t.whole := by
  unfold NumText.intValue
  split <;> omega

theorem loaded_of_loadNumber {t : Token} {number : Number PyNum} (loaded : loadNumber t = .ok number) :
    Loaded number := by
  cases t with
  | number t =>
      simp only [loadNumber] at loaded
      split at loaded
      · unfold int at loaded
        split at loaded
        · rename_i short
          cases loaded
          refine .int ?_
          rw [Convertible, intValue_natAbs]
          exact short
        · cases loaded
      · cases loaded
        exact .float t
  | nan => cases loaded; exact .nan
  | infinity => cases loaded; exact .infinity false
  | negInfinity => cases loaded; exact .infinity true

/-- What `json.dumps` writes for a loaded number is read back by the worker as a
number with the same total. -/
theorem Loaded.roundTrip {number : Number PyNum} (loaded : Loaded number) :
    ∃ (written : Number Token) (read : Number PyNum),
      number.value.decode (fun i => .ok (.int i)) dumpNumber = .ok written.value ∧
      parseNumber written.token = .ok read ∧ amount read.value = amount number.value := by
  cases loaded with
  | int short =>
      refine ⟨.int _, .int _, rfl, ?_, rfl⟩
      rw [Number.token, parseNumber, NumText.isInt_ofInt, if_pos rfl, int_ofInt short]
      rfl
  | nan => exact ⟨.num .nan, .num (.float .nan), rfl, rfl, rfl⟩
  | infinity neg =>
      cases neg
      · exact ⟨.num .infinity, .num (.float (.infinity false)), rfl, rfl, rfl⟩
      · exact ⟨.num .negInfinity, .num (.float (.infinity true)), rfl, rfl, rfl⟩
  | float t =>
      rw [Python.float, Binary64.ofRat]
      split
      · rename_i finite
        have fits := fits_reprFinite t.neg (abs_nonneg t.value) finite
        have notInt : ¬ (reprFinite t.neg (round64 |t.value|)).isInt = true := by
          rw [isInt_reprFinite]
          decide
        refine ⟨.num (.number (reprFinite t.neg (round64 |t.value|))),
          .num (.decimal (.ofNumText (reprFinite t.neg (round64 |t.value|)))), rfl, ?_, rfl⟩
        rw [Number.token, parseNumber, if_neg notInt, if_pos fits]
      · cases t.neg
        · exact ⟨.num .infinity, .num (.float (.infinity false)), rfl, rfl, rfl⟩
        · exact ⟨.num .negInfinity, .num (.float (.infinity true)), rfl, rfl, rfl⟩

/-- A row whose amount `json.loads` decoded. -/
def LoadedRow (row : Row PyNum) : Prop := ∀ number, row.amount = some number → Loaded number

theorem loadedRow_of_loadRow {row : Row Token} {loaded : Row PyNum} (load : loadRow row = .ok loaded) :
    LoadedRow loaded := by
  intro number present
  unfold loadRow at load
  split at load
  · cases load
    cases present
  · rename_i amount _
    cases read : loadNumber amount.token with
    | error exc =>
        rw [read] at load
        cases load
    | ok number' =>
        rw [read] at load
        cases load
        cases present
        exact loaded_of_loadNumber read

/-! ### Messages -/

/-- The order that the worker makes of a re-enqueued event. -/
def orderOfEvent (rt : Runtime) (event : List (String × Obj)) : Except Exn Order :=
  match dumpsText (.obj event) with
  | .error exc => .error exc
  | .ok body => orderOf rt body

theorem eventOf_eq (row : Row PyNum) (stamp publishedAt : Int) :
    eventOf row stamp publishedAt = eventMembers row (normalised stamp) (version stamp)
      (String.ofList (strftime publishedAt ++ ['Z'])) row.account.join := by
  rw [eventOf, accountName_join]
  rfl

theorem totalOf_withAmount {row : Row PyNum} (normalised : String) (accountName : Option String)
    {number number' : Number PyNum} (present : row.amount = some number)
    (same : amount number'.value = amount number.value) :
    totalOf (dealMembers (row.withAmount (some number')) normalised accountName) =
      totalOf (dealMembers row normalised accountName) := by
  have account : dictGet "account_id" (dealMembers (row.withAmount (some number')) normalised accountName) =
      dictGet "account_id" (dealMembers row normalised accountName) := rfl
  have value : dictGet "amount" (dealMembers (row.withAmount (some number')) normalised accountName) =
      number'.value := rfl
  have value' : dictGet "amount" (dealMembers row normalised accountName) = number.value := by
    rw [dealMembers, present]
    rfl
  unfold totalOf
  rw [account, value, value']
  split
  · rfl
  · rfl
  · rcases number with _ | _ <;> rcases number' with _ | _ <;> exact same

/-- The worker accepts a re-enqueued event exactly as `to_order` does before. -/
theorem orderOf_message {rt : Runtime} (deep : 2 ≤ rt.depth) {row : Row PyNum} (loaded : LoadedRow row)
    {stamp : Int} (inRange : InRange stamp) (publishedAt : Int) :
    orderOfEvent rt (eventOf row stamp publishedAt) = toOrder rt (eventOf row stamp publishedAt) := by
  rw [eventOf_eq]
  generalize String.ofList (strftime publishedAt ++ ['Z']) = published
  obtain ⟨row', read, dumped, parsed, message, same⟩ : ∃ (row' : Row Token) (read : Option (Number PyNum)),
      dumps (.obj (eventMembers row (normalised stamp) (version stamp) published row.account.join)) =
        .ok (.obj (eventMembers row' (normalised stamp) (version stamp) published row.account.join)) ∧
      parseAmount row'.amount = .ok read ∧ row'.withAmount read = row.withAmount read ∧
      toOrder rt (eventMembers (row.withAmount read) (normalised stamp) (version stamp) published
          row.account.join) =
        toOrder rt (eventMembers row (normalised stamp) (version stamp) published row.account.join) := by
    cases present : row.amount with
    | none =>
        have same : row.withAmount none = row := by
          rw [Row.withAmount, ← present]
        have amounts : (jsonNumber row.amount).decode (fun i => .ok (.int i)) dumpNumber =
            (.ok none : Except Exn (Option (Number Token))).map jsonNumber := by
          rw [present]
          rfl
        refine ⟨row.withAmount none, none, ?_, rfl, rfl, by rw [same]⟩
        exact decode_event _ _ row _ _ _ rfl amounts
    | some number =>
        obtain ⟨written, read, dumped, parsed, same⟩ := (loaded number present).roundTrip
        have amounts : (jsonNumber row.amount).decode (fun i => .ok (.int i)) dumpNumber =
            (.ok (some written) : Except Exn (Option (Number Token))).map jsonNumber := by
          rw [present]
          exact dumped
        refine ⟨row.withAmount (some written), some read, ?_, ?_, rfl, ?_⟩
        · exact decode_event _ _ row _ _ _ rfl amounts
        · rw [Row.withAmount, parseAmount, parsed]
          rfl
        · refine toOrder_congr rt _ _ _ _ (fun name other => ?_) rfl
            (totalOf_withAmount _ _ present same)
          have skip : (name == "amount") = false := by simpa using other
          simp only [dictGet, dealMembers, Row.withAmount, List.lookup_cons, skip]
  have body := parseBody_event deep .python row' (normalised stamp) (convertible_version inRange)
    published row.account.join
  rw [parsed, Except.map, message] at body
  rw [orderOfEvent, dumpsText, dumped, Except.map]
  dsimp only
  rw [Worker.orderOf, body]
  exact same

end Relay.Reconciler
