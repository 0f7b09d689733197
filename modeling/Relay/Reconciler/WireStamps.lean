import Relay.Calendar.Order
import Relay.Reconciler.Stamps
import Relay.Reconciler.Versions
import Relay.Salesforce.Org

/-!
The stamps of deals as Python reads them.

A deal's stamp is shown with its year however many digits that takes; Python reads
those between the years 1 and 9999. The version of what it reads is not above the
stamp, unless that lies before 1970 (`version_le`).
-/

namespace Relay.Reconciler

open Relay.Calendar Relay.Python Relay.Salesforce Relay.Numeric

theorem mem_yearText {year : Int} {c : Char} (mem : c ∈ yearText year) : c = '-' ∨ c.isDigit = true := by
  have digits : ∀ {c}, c ∈ padded 4 year.natAbs → c.isDigit = true := by
    intro c mem
    unfold padded at mem
    split at mem
    · exact isDigit_fixed c mem
    · exact Nat.isDigit_of_mem_toDigits (by decide) (by decide) mem
  unfold yearText at mem
  split at mem
  · rcases List.mem_cons.mp mem with rfl | mem
    · exact .inl rfl
    · exact .inr (digits mem)
  · exact .inr (digits mem)

/-- Four digits and a dash are no year of another width. -/
theorem isoFields_yearText {year : Int} (outside : ¬ (0 ≤ year ∧ year ≤ 9999)) (rest : List Char) :
    isoFields (yearText year ++ rest) = none := by
  suffices noYear : ∀ n cs, readDigits 4 0 (yearText year ++ rest) = some (n, cs) →
      skip '-' cs = none by
    simp only [isoFields]
    cases read : readDigits 4 0 (yearText year ++ rest) with
    | none => rfl
    | some pair =>
        obtain ⟨n, cs⟩ := pair
        simp [noYear n cs read]
  intro n cs read
  by_cases negative : year < 0
  · rw [yearText, if_pos negative] at read
    simp [readDigits, Char.isDigit] at read
  · have long : ¬ year.natAbs < 10 ^ 4 := by omega
    have tooLong : ¬ (Nat.toDigits 10 year.natAbs).length ≤ 4 := fun short =>
      long ((Nat.length_toDigits_le_iff (by decide) (by decide)).mp short)
    rw [yearText, if_neg negative, padded, if_neg long] at read
    rw [readDigits_rest read, List.drop_append_of_le_length (by omega)]
    cases tail : (Nat.toDigits 10 year.natAbs).drop 4 with
    | nil => exact absurd (List.drop_eq_nil_iff.mp tail) tooLong
    | cons c cs =>
        have digit := Nat.isDigit_of_mem_toDigits (by decide) (by decide)
          (List.mem_of_mem_drop (tail ▸ List.mem_cons_self) : c ∈ Nat.toDigits 10 year.natAbs)
        have other : c ≠ '-' := by
          rintro rfl
          cases digit
        simp [skip, other]

/-- The stamp of a deal, as Python reads it. -/
theorem parseModstamp_wireText {ms stamp : Int} (parsed : parseModstamp (wireText ms) = .ok stamp) :
    stamp = 1000 * ms ∧ InRange (1000 * ms) := by
  have valid := ofSeconds_valid (ms / 1000)
  by_cases inside : 1 ≤ (DateTime.ofSeconds (ms / 1000)).date.year ∧
      (DateTime.ofSeconds (ms / 1000)).date.year ≤ 9999
  · obtain ⟨s, is⟩ : ∃ s : Stamp, s = ⟨.ofSeconds (ms / 1000), .plain utcOffset, valid, inside⟩ := ⟨_, rfl⟩
    have text : wireText ms = s.textAt (ms % 1000).toNat := by
      rw [is]
      rfl
    have seconds : s.seconds = ms / 1000 := by
      rw [is, Stamp.seconds, toSeconds_ofSeconds]
      exact sub_zero _
    have instant : 1000000 * (ms / 1000) + 1000 * ((ms % 1000).toNat : Int) = 1000 * ms := by omega
    rw [text, parseModstamp_textAt s (by omega), seconds, instant] at parsed
    split at parsed
    · rename_i inRange
      cases parsed
      exact ⟨rfl, inRange⟩
    · cases parsed
  · -- A year of another width, or the year 0.
    obtain ⟨t, at_⟩ : ∃ t, t = DateTime.ofSeconds (ms / 1000) := ⟨_, rfl⟩
    have free : ∀ c ∈ t.text ++ ('.' :: fixed 3 (ms % 1000).toNat), c ≠ 'Z' := by
      intro c mem
      simp only [DateTime.text, List.mem_append, List.mem_cons] at mem
      rcases mem with (mem | rfl | mem | rfl | mem | rfl | mem | rfl | mem | rfl | mem) | rfl | mem
      · rcases mem_yearText mem with rfl | digit
        · decide
        · rintro rfl
          cases digit
      all_goals first | exact mem_fixed_ne mem rfl | decide
    have given : colonOffset (replaceZ (wireText ms).toList) = t.text ++ ('.' :: (fixed 3 (ms % 1000).toNat ++
        (utcOffset.sign :: (fixed 2 utcOffset.hours ++ (':' :: fixed 2 utcOffset.minutes))))) := by
      have shape : (wireText ms).toList =
          (t.text ++ ('.' :: fixed 3 (ms % 1000).toNat)) ++ (Zone.plain utcOffset).text := by
        rw [at_, wireText, String.toList_ofList, List.append_assoc]
        rfl
      rw [shape, replaceZ_append, replaceZ_of_not_mem free, colonOffset_zone]
      simp [offset]
    have none_ : isoInstant (colonOffset (replaceZ (wireText ms).toList)) = none := by
      rw [given]
      by_cases four : FourDigits t
      · have zero : ¬ 1 ≤ t.date.year := fun one => inside (at_ ▸ ⟨one, four.2⟩)
        simp only [isoInstant, isoFields_text (at_ ▸ valid) four, Option.bind_eq_bind, Option.bind_some]
        cases isoFraction _ with
        | none => rfl
        | some read =>
            simp only [Option.bind_some]
            cases isoOffset read.2 with
            | none => rfl
            | some seconds => simp [zero]
      · rw [DateTime.text, List.append_assoc, isoInstant, isoFields_yearText four]
        rfl
    rw [parseModstamp, fromisoformat, none_] at parsed
    cases parsed

/-- No version is positive up to 1970. -/
theorem version_nonpos {stamp : Int} (early : stamp ≤ 0) : version stamp ≤ 0 := by
  have signed : ∀ {q : ℚ}, q ≤ 0 → roundSigned q ≤ 0 := by
    intro q nonpos
    unfold roundSigned
    split
    · have := round64_nonneg (show 0 ≤ -q by linarith)
      linarith
    · rename_i notNegative
      rw [le_antisymm nonpos (not_lt.mp notNegative), round64_zero]
  have early' : (stamp : ℚ) / 1000000 ≤ 0 := by
    have : (stamp : ℚ) ≤ 0 := by exact_mod_cast early
    linarith
  have product := signed (show timestamp stamp * 1000 ≤ 0 by
    have := signed early'
    rw [timestamp]
    linarith)
  rw [version, truncate]
  split
  · have := Int.floor_nonneg.mpr (show 0 ≤ -roundSigned (timestamp stamp * 1000) by linarith)
    omega
  · rename_i notNegative
    rw [le_antisymm product (not_lt.mp notNegative)]
    decide

/-- A positive version is the stamp's millisecond, or the one before it. -/
theorem version_le {ms : Int} (inRange : InRange (1000 * ms)) (positive : 0 < version (1000 * ms)) :
    version (1000 * ms) ≤ ms := by
  have late : 0 < ms := by
    by_contra early
    have := version_nonpos (show 1000 * ms ≤ 0 by omega)
    omega
  have fits : ms < 2 ^ 48 := by
    have last : yearOf 253402300800 = 10000 := by decide
    have high := inRange.2
    have second : 1000 * ms / 1000000 = ms / 1000 := by omega
    rw [second] at high
    by_contra after
    have := yearOf_mono (show 253402300800 ≤ ms / 1000 by omega)
    omega
  obtain ⟨k, rfl⟩ := Int.eq_ofNat_of_zero_le late.le
  rw [version_millis (show k < 2 ^ 48 by omega)]
  split <;> omega

end Relay.Reconciler
