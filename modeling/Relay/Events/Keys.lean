import Relay.Calendar.Order
import Relay.Events.Builders
import Relay.Reconciler.Versions

/-!
What names a version of a deal: its event key and its version number.

Go computes the version of a stamp in integers, Python in doubles. The keys of
the two builders are always equal; the versions are, exactly on the milliseconds
at which Python's roundings do not slip.
-/

namespace Relay.Events

open Relay.Json Relay.Python Relay.Calendar Relay.Salesforce Relay.Reconciler

variable {N : Type}

/-! ### Stamps with milliseconds -/

/-- A stamp with milliseconds whose instant lies in the years 1970 to 9999. -/
structure Modstamp where
  stamp : Stamp
  millis : Nat
  millis_lt : millis < 1000
  year : 1970 ≤ yearOf stamp.seconds ∧ yearOf stamp.seconds ≤ 9999

namespace Modstamp

def text (m : Modstamp) : String := m.stamp.textAt m.millis

theorem seconds_bound (m : Modstamp) : 0 ≤ m.stamp.seconds ∧ m.stamp.seconds < 253402300800 := by
  have first : yearOf (-1) = 1969 := by decide
  have last : yearOf 253402300800 = 10000 := by decide
  obtain ⟨low, high⟩ := m.year
  constructor
  · by_contra before
    have := yearOf_mono (show m.stamp.seconds ≤ -1 by omega)
    omega
  · by_contra after
    have := yearOf_mono (show 253402300800 ≤ m.stamp.seconds by omega)
    omega

/-- The milliseconds since 1970-01-01T00:00:00Z. -/
def epochMillis (m : Modstamp) : Nat := 1000 * m.stamp.seconds.toNat + m.millis

theorem epochMillis_eq (m : Modstamp) : (m.epochMillis : Int) = 1000 * m.stamp.seconds + m.millis := by
  have := m.seconds_bound
  unfold epochMillis
  omega

theorem epochMillis_lt (m : Modstamp) : m.epochMillis < 2 ^ 48 := by
  have bound := m.seconds_bound
  have millis := m.millis_lt
  unfold epochMillis
  omega

theorem fourDigits (m : Modstamp) :
    FourDigits (.ofSeconds (1000000 * (m.epochMillis : Int) / nanosPerSecond)) := by
  have second : 1000000 * (m.epochMillis : Int) / nanosPerSecond = m.stamp.seconds := by
    rw [m.epochMillis_eq, nanosPerSecond]
    have := m.millis_lt
    omega
  obtain ⟨low, high⟩ := m.year
  rw [second]
  exact ⟨by unfold yearOf at low; omega, high⟩

theorem inRange (m : Modstamp) : InRange (1000 * (m.epochMillis : Int)) := by
  have second : 1000 * (m.epochMillis : Int) / 1000000 = m.stamp.seconds := by
    rw [m.epochMillis_eq]
    have := m.millis_lt
    omega
  obtain ⟨low, high⟩ := m.year
  rw [InRange, second]
  omega

end Modstamp

/-! ### Names -/

/-- The name of a version of a deal. -/
structure Label where
  key : String
  version : Int

/-- The row with this stamp. -/
def stampedAt (row : Row N) (m : Modstamp) : Row N := { row with systemModstamp := m.text }

/-- The label that the Go poller gives a row. -/
def goLabel (row : Row N) (publishedAt : Int) : Option Label :=
  match Opportunity.unmarshal row.json with
  | .error _ => none
  | .ok o => (fromOpportunity o publishedAt).map fun event => ⟨event.eventKey, event.version⟩

/-- The label that the reconciler gives a row. -/
def pythonLabel (row : Row N) (publishedAt : Int) : Option Label :=
  match fromSalesforce row publishedAt with
  | .error _ => none
  | .ok event =>
      match event.lookup "event_key", event.lookup "version" with
      | some (.str key), some (.int version) => some ⟨key, version⟩
      | _, _ => none

/-- The normalised form of a millisecond since 1970. -/
def suffix (k : Nat) : String := String.ofList (formatMillis (1000000 * (k : Int)))

theorem goLabel_stampedAt (row : Row N) (m : Modstamp) (publishedAt : Int) :
    goLabel (stampedAt row m) publishedAt =
      some ⟨row.id ++ ":" ++ suffix m.epochMillis, m.epochMillis⟩ := by
  have instant : nanosPerSecond * m.stamp.seconds + 1000000 * (m.millis : Int) =
      1000000 * (m.epochMillis : Int) := by
    rw [m.epochMillis_eq, nanosPerSecond]
    omega
  have version : unixMilli (1000000 * (m.epochMillis : Int)) = m.epochMillis := by
    rw [unixMilli]
    omega
  simp only [goLabel, unmarshal_row, fromOpportunity, stampedAt, Modstamp.text,
    parseDateTime_textAt m.stamp m.millis_lt, instant, version, Option.map_some]
  rfl

/-- Python's version of a millisecond. -/
def pythonVersion (k : Nat) : Int := if Slips k then (k : Int) - 1 else k

theorem pythonLabel_stampedAt (row : Row N) (m : Modstamp) (publishedAt : Int) :
    pythonLabel (stampedAt row m) publishedAt =
      some ⟨row.id ++ ":" ++ suffix m.epochMillis, pythonVersion m.epochMillis⟩ := by
  have instant : 1000000 * m.stamp.seconds + 1000 * (m.millis : Int) = 1000 * (m.epochMillis : Int) := by
    rw [m.epochMillis_eq]
    omega
  have parsed : parseModstamp (stampedAt row m).systemModstamp = _ :=
    parseModstamp_textAt m.stamp m.millis_lt
  rw [instant, if_pos m.inRange] at parsed
  have version := version_millis m.epochMillis_lt
  rw [pythonLabel, fromSalesforce, parsed]
  simp only [eventOf, normalised_millis, version]
  rfl

/-! ### What the suffix says -/

/-- The suffix of a key denotes its millisecond. -/
theorem parseDateTime_suffix (m : Modstamp) :
    parseDateTime (suffix m.epochMillis) = some (1000000 * (m.epochMillis : Int)) := by
  have whole : 1000000 * (1000000 * (m.epochMillis : Int) / 1000000) = 1000000 * m.epochMillis := by
    omega
  rw [suffix, parseDateTime_formatMillis, if_pos m.fourDigits, whole]

/-- A later millisecond has a later suffix. -/
theorem suffix_lt {m m' : Modstamp} (lt : m.epochMillis < m'.epochMillis) :
    suffix m.epochMillis < suffix m'.epochMillis := by
  have inside := m.fourDigits
  have inside' := m'.fourDigits
  obtain ⟨j, first⟩ : ∃ j, j = m.epochMillis := ⟨_, rfl⟩
  obtain ⟨k, second⟩ : ∃ k, k = m'.epochMillis := ⟨_, rfl⟩
  rw [← first] at inside lt ⊢
  rw [← second] at inside' lt ⊢
  simp only [suffix, String.lt_iff_toList_lt, String.toList_ofList, formatMillis]
  apply text_lt (ofSeconds_valid _) (ofSeconds_valid _) inside inside'
  have order : 1000000 * (j : Int) / nanosPerSecond < 1000000 * (k : Int) / nanosPerSecond ∨
      1000000 * (j : Int) / nanosPerSecond = 1000000 * (k : Int) / nanosPerSecond ∧
        (1000000 * (j : Int) % nanosPerSecond / 1000000).toNat <
          (1000000 * (k : Int) % nanosPerSecond / 1000000).toNat := by
    rw [nanosPerSecond]
    omega
  rcases order with earlier | ⟨same, earlier⟩
  · exact .inl (ofSeconds_fields_lt earlier)
  · refine .inr ⟨by rw [same], ?_⟩
    apply List.cons_lt_cons_iff.mpr
    refine .inr ⟨rfl, fixed_append_lt ?_ ?_ (.inl earlier)⟩
    all_goals
      rw [nanosPerSecond]
      omega

theorem suffix_lt_iff (m m' : Modstamp) :
    suffix m.epochMillis < suffix m'.epochMillis ↔ m.epochMillis < m'.epochMillis := by
  constructor
  · intro lt
    by_contra notLess
    rcases (Nat.le_of_not_lt notLess).lt_or_eq with greater | same
    · exact lt_asymm lt (suffix_lt greater)
    · rw [same] at lt
      exact lt_irrefl _ lt
  · exact suffix_lt

theorem suffix_inj (m m' : Modstamp) :
    suffix m.epochMillis = suffix m'.epochMillis ↔ m.epochMillis = m'.epochMillis := by
  constructor
  · intro same
    have denoted := parseDateTime_suffix m
    rw [same, parseDateTime_suffix m'] at denoted
    have := Option.some.inj denoted
    omega
  · exact congrArg suffix

theorem length_suffix (m : Modstamp) : (suffix m.epochMillis).toList.length = 24 := by
  rw [suffix, String.toList_ofList, formatMillis, List.length_append, length_text m.fourDigits,
    List.length_cons, List.length_append, length_fixed]
  rfl

/-- An Id and a suffix are read off their key. -/
theorem key_inj {id id' : String} {m m' : Modstamp} :
    id ++ ":" ++ suffix m.epochMillis = id' ++ ":" ++ suffix m'.epochMillis ↔
      id = id' ∧ m.epochMillis = m'.epochMillis := by
  constructor
  · intro same
    have texts := congrArg String.toList same
    simp only [String.toList_append] at texts
    obtain ⟨front, back⟩ := List.append_inj' texts (by rw [length_suffix, length_suffix])
    obtain ⟨ids, -⟩ := List.append_inj' front rfl
    exact ⟨String.toList_inj.mp ids, (suffix_inj m m').mp (String.toList_inj.mp back)⟩
  · rintro ⟨rfl, same⟩
    rw [same]

theorem suffix_of_key {id s : String} {m : Modstamp}
    (key : id ++ ":" ++ suffix m.epochMillis = id ++ ":" ++ s) : s = suffix m.epochMillis := by
  have texts := congrArg String.toList key
  simp only [String.toList_append] at texts
  exact (String.toList_inj.mp (List.append_cancel_left texts)).symm

/-! ### Both builders -/

/-- Both builders give a row this label, whose version is the millisecond that the suffix of its
key denotes. -/
def Labelled (row : Row N) (sent built : Int) (label : Label) : Prop :=
  goLabel row sent = some label ∧ pythonLabel row built = some label ∧
    ∃ s, label.key = row.id ++ ":" ++ s ∧ parseDateTime s = some (1000000 * label.version)

/-- The labels of two rows are equal when their Ids and versions are, and for one Id the suffixes
are in the order of the versions. -/
def Ordered (row row' : Row N) (a b : Label) : Prop :=
  (a.key = b.key ↔ row.id = row'.id ∧ a.version = b.version) ∧
    (row.id = row'.id → ∀ s s', a.key = row.id ++ ":" ++ s → b.key = row'.id ++ ":" ++ s' →
      (s < s' ↔ a.version < b.version))

theorem labelled_iff (row : Row N) (m : Modstamp) (sent built : Int) (label : Label) :
    Labelled (stampedAt row m) sent built label ↔
      label = ⟨row.id ++ ":" ++ suffix m.epochMillis, m.epochMillis⟩ ∧ ¬ Slips m.epochMillis := by
  rw [Labelled, goLabel_stampedAt, pythonLabel_stampedAt]
  constructor
  · rintro ⟨go, python, -⟩
    have label := (Option.some.inj go).symm
    refine ⟨label, fun slips => ?_⟩
    rw [← Option.some.inj go] at python
    have versions := congrArg Label.version (Option.some.inj python)
    simp only [pythonVersion, if_pos slips] at versions
    omega
  · rintro ⟨rfl, exact_⟩
    refine ⟨rfl, by rw [pythonVersion, if_neg exact_], suffix m.epochMillis, rfl, ?_⟩
    exact parseDateTime_suffix m

theorem ordered (row row' : Row N) (m m' : Modstamp) :
    Ordered (stampedAt row m) (stampedAt row' m')
      ⟨row.id ++ ":" ++ suffix m.epochMillis, m.epochMillis⟩
      ⟨row'.id ++ ":" ++ suffix m'.epochMillis, m'.epochMillis⟩ := by
  constructor
  · simp only [key_inj, Nat.cast_inj]
    rfl
  · intro _ s s' key key'
    obtain rfl := suffix_of_key key
    obtain rfl := suffix_of_key key'
    simp only [suffix_lt_iff, Nat.cast_lt]

/-- The keys and versions of two rows name the same thing in both languages exactly when Python's
roundings slip at neither stamp. -/
theorem labels_agree_iff (row row' : Row N) (m m' : Modstamp) (sent built sent' built' : Int) :
    (∃ a b, Labelled (stampedAt row m) sent built a ∧ Labelled (stampedAt row' m') sent' built' b ∧
      Ordered (stampedAt row m) (stampedAt row' m') a b) ↔
      ¬ Slips m.epochMillis ∧ ¬ Slips m'.epochMillis := by
  simp only [labelled_iff]
  constructor
  · rintro ⟨a, b, ⟨-, first⟩, ⟨-, second⟩, -⟩
    exact ⟨first, second⟩
  · rintro ⟨first, second⟩
    exact ⟨_, _, ⟨rfl, first⟩, ⟨rfl, second⟩, ordered row row' m m'⟩

/-- 2038-02-17T06:13:20.002+0000 -/
def february : Modstamp where
  stamp := ⟨⟨⟨2038, 2, 17⟩, 6, 13, 20⟩, .plain utcOffset, by decide, by decide⟩
  millis := 2
  millis_lt := by decide
  year := by decide

/-- Python's version of that stamp is a millisecond early. -/
theorem labels_differ :
    february.text = "2038-02-17T06:13:20.002+0000" ∧
      ¬ ∃ a b, Labelled (stampedAt (namelessAccount : Row Token) february) 0 0 a ∧
        Labelled (stampedAt (namelessAccount : Row Token) february) 0 0 b ∧
        Ordered (stampedAt (namelessAccount : Row Token) february) (stampedAt namelessAccount february) a b := by
  have slips : Slips february.epochMillis := by decide
  constructor
  · decide
  · rintro ⟨a, b, first, -⟩
    exact ((labelled_iff _ _ _ _ _).mp first).2 slips

end Relay.Events
