import Relay.Json.Print

/-!
Reading back what was printed.

`scanOnce_print`: in every style, a printed value followed by anything that
cannot continue a number scans to its decoding, and the scan ends where the
value does. `loads_print` is the same for a whole text.
-/

namespace Relay.Json

variable {N E : Type} {number : Token → Except E (Value N)} {style : Style}

/-- How a scan with the hook `number` decodes a printed value. -/
def Value.decoded (number : Token → Except E (Value N)) (v : Value Token) : Except E (Value N) :=
  v.decode (fun i => number (.number (.ofInt i))) number

/-! ### Strings -/

theorem scanBody_body {cs : List Char} (start : Nat) {fuel : Nat} (enough : cs.length < fuel)
    (rest : List Char) :
    (scanBody start fuel (style.body cs ++ rest) : Except (ScanError E) _) = .ok (cs, rest) := by
  induction cs generalizing fuel with
  | nil =>
      obtain ⟨fuel, rfl⟩ := Nat.exists_eq_succ_of_ne_zero (Nat.ne_of_gt enough)
      rfl
  | cons c cs ih =>
      obtain ⟨fuel, rfl⟩ := Nat.exists_eq_succ_of_ne_zero (Nat.ne_of_gt (Nat.zero_lt_of_lt enough))
      have tail := @ih fuel (by simpa using enough)
      simp only [Style.body, List.append_assoc, scanBody, style.escape_lexes, tail]
      rfl

/-- No character is escaped to nothing. -/
theorem Style.escape_ne_nil (style : Style) (c : Char) : style.escape c ≠ [] := by
  intro empty
  have first := style.escape_lexes c []
  rw [empty] at first
  cases first

theorem length_body (style : Style) (cs : List Char) : cs.length < (style.body cs).length := by
  induction cs with
  | nil => simp [Style.body]
  | cons c cs ih =>
      have pos := List.length_pos_of_ne_nil (style.escape_ne_nil c)
      simp only [Style.body, List.length_append, List.length_cons]
      omega

theorem scanString_body (s : String) (rest : List Char) :
    (scanString (style.body s.toList ++ rest) : Except (ScanError E) _) = .ok (s, rest) := by
  have longer := length_body style s.toList
  have enough : s.toList.length < (style.body s.toList ++ rest).length + 1 := by
    rw [List.length_append]
    omega
  simp only [scanString, scanBody_body _ enough, Except.map, String.ofList_toList]

/-! ### White space -/

theorem skipWs_cons {c : Char} (solid : isWhitespace c = false) (cs : List Char) :
    skipWs (c :: cs) = c :: cs := by simp [skipWs, solid]

theorem skipWs_blank {blank : List Char} (all : ∀ c ∈ blank, isWhitespace c = true) (cs : List Char) :
    skipWs (blank ++ cs) = skipWs cs := by
  induction blank with
  | nil => rfl
  | cons c blank ih =>
      have tail := ih fun d mem => all d (List.mem_cons_of_mem _ mem)
      simp [skipWs, all c List.mem_cons_self, tail]

/-- The first character of a number text is a digit, or a minus with a digit
behind it. -/
theorem NumText.text_head (t : NumText) :
    ∃ c cs, t.text = c :: cs ∧
      (c.isDigit = true ∨ (c = '-' ∧ ∃ d ds, cs = d :: ds ∧ d.isDigit = true)) := by
  obtain ⟨neg, whole, frac, exp⟩ := t
  cases split : Nat.toDigits 10 whole with
  | nil => exact absurd split Nat.toDigits_ne_nil
  | cons d ds =>
      have digit : d.isDigit = true :=
        Nat.isDigit_of_mem_toDigits (by decide) (by decide) (split ▸ List.mem_cons_self)
      cases neg with
      | true =>
          refine ⟨'-', d :: (ds ++ (NumText.fracText frac ++ NumText.expText exp)), ?_,
            .inr ⟨rfl, d, _, rfl, digit⟩⟩
          simp [NumText.text, split]
      | false =>
          refine ⟨d, ds ++ (NumText.fracText frac ++ NumText.expText exp), ?_, .inl digit⟩
          simp [NumText.text, split]

/-- A character that a printed value may start with. -/
def Starts (c : Char) : Prop := isWhitespace c = false ∧ c ≠ ']' ∧ c ≠ '\uFEFF'

theorem starts_of_isDigit {c : Char} (digit : c.isDigit = true) : Starts c := by
  have bounds : 48 ≤ c.toNat ∧ c.toNat ≤ 57 := by simpa [Char.isDigit, UInt32.le_iff_toNat_le] using digit
  refine ⟨?_, ?_, ?_⟩
  · simp only [isWhitespace, Bool.or_eq_false_iff, beq_eq_false_iff_ne]
    refine ⟨⟨⟨?_, ?_⟩, ?_⟩, ?_⟩ <;> rintro rfl <;> exact absurd digit (by decide)
  · rintro rfl
    exact absurd digit (by decide)
  · rintro rfl
    exact absurd digit (by decide)

theorem NumText.text_starts (t : NumText) : ∃ c cs, t.text = c :: cs ∧ Starts c := by
  obtain ⟨c, cs, split, digit | ⟨rfl, -⟩⟩ := t.text_head
  · exact ⟨c, cs, split, starts_of_isDigit digit⟩
  · exact ⟨'-', cs, split, by simp [Starts, isWhitespace]⟩

theorem print_starts (style : Style) (v : Value Token) : ∃ c cs, print style v = c :: cs ∧ Starts c := by
  cases v with
  | null => exact ⟨'n', _, rfl, by simp [Starts, isWhitespace]⟩
  | bool b =>
      cases b with
      | false => exact ⟨'f', _, rfl, by simp [Starts, isWhitespace]⟩
      | true => exact ⟨'t', _, rfl, by simp [Starts, isWhitespace]⟩
  | int i => simpa only [print] using (NumText.ofInt i).text_starts
  | num t =>
      cases t with
      | number t => simpa only [print, Token.text] using t.text_starts
      | nan => exact ⟨'N', _, rfl, by simp [Starts, isWhitespace]⟩
      | infinity => exact ⟨'I', _, rfl, by simp [Starts, isWhitespace]⟩
      | negInfinity => exact ⟨'-', _, rfl, by simp [Starts, isWhitespace]⟩
  | str s => exact ⟨'"', style.body s.toList, by simp [print, Style.string], by simp [Starts, isWhitespace]⟩
  | arr items => exact ⟨'[', printItems style items, by simp [print], by simp [Starts, isWhitespace]⟩
  | obj members =>
      exact ⟨'\x7b', printMembers style members, by simp [print], by simp [Starts, isWhitespace]⟩

theorem skipWs_print (style : Style) (v : Value Token) (rest : List Char) :
    skipWs (print style v ++ rest) = print style v ++ rest := by
  obtain ⟨c, cs, split, solid, -⟩ := print_starts style v
  rw [split, List.cons_append, skipWs_cons solid]

/-! ### Values that hold no other value -/

/-- A number text starts with a digit or a minus. -/
theorem ne_head_of_text {t : NumText} {c d : Char} {cs : List Char} (text : t.text = c :: cs)
    (minus : d ≠ '-') (digit : d.isDigit = false) : c ≠ d := by
  rintro rfl
  obtain ⟨c', cs', split, head⟩ := t.text_head
  obtain ⟨rfl, rfl⟩ := List.cons.inj (text.symm.trans split)
  rcases head with isDigit | ⟨rfl, -⟩
  · exact absurd isDigit (by simp [digit])
  · exact minus rfl

theorem scanScalar_number (t : NumText) {rest : List Char} (stop : Stops rest) :
    scanScalar number (t.text ++ rest) = hooked (number (.number t)) rest := by
  have read := scanNumber_text t stop
  obtain ⟨c, cs, split, head⟩ := t.text_head
  rw [split, List.cons_append] at read ⊢
  have notMinus : ∀ ds, c :: (cs ++ rest) ≠ '-' :: 'I' :: ds := by
    intro ds same
    obtain ⟨rfl, tail⟩ := List.cons.inj same
    rcases head with digit | ⟨-, d, ds', rfl, digit⟩
    · exact absurd digit (by decide)
    · obtain ⟨rfl, -⟩ := List.cons.inj tail
      exact absurd digit (by decide)
  unfold scanScalar
  split
  case h_7 same => exact absurd same (notMinus _)
  case h_8 => rw [read]
  all_goals
    rename_i same
    exact absurd (List.cons.inj same).1 (ne_head_of_text split (by decide) (by decide))

theorem scanOnce_scalar (depth : Nat) {c : Char} (bracket : c ≠ '[') (brace : c ≠ '\x7b')
    (cs : List Char) : scanOnce number depth (c :: cs) = scanScalar number (c :: cs) := by
  apply scanOnce_of_scalar
  · rintro rest same
    exact bracket (List.cons.inj same).1
  · rintro rest same
    exact brace (List.cons.inj same).1

theorem scanOnce_number (depth : Nat) (t : NumText) {rest : List Char} (stop : Stops rest) :
    scanOnce number depth (t.text ++ rest) = hooked (number (.number t)) rest := by
  rw [← scanScalar_number t stop]
  obtain ⟨c, cs, split, -⟩ := t.text_head
  rw [split, List.cons_append]
  exact scanOnce_scalar depth (ne_head_of_text split (by decide) (by decide))
    (ne_head_of_text split (by decide) (by decide)) _

/-! ### Arrays and objects -/

theorem length_printMoreItems (style : Style) (vs : List (Value Token)) :
    vs.length < (printMoreItems style vs).length := by
  induction vs with
  | nil => simp [printMoreItems]
  | cons v vs ih =>
      simp only [printMoreItems, List.length_cons, List.length_append]
      omega

theorem length_printMoreMembers (style : Style) (ms : List (String × Value Token)) :
    ms.length < (printMoreMembers style ms).length := by
  induction ms with
  | nil => simp [printMoreMembers]
  | cons m ms ih =>
      obtain ⟨k, v⟩ := m
      simp only [printMoreMembers, List.length_cons, List.length_append]
      omega

theorem stops_printMoreItems (style : Style) (vs : List (Value Token)) (rest : List Char) :
    Stops (printMoreItems style vs ++ rest) := by
  cases vs with
  | nil => exact stops_cons (by decide) (by decide) (by decide) (by decide)
  | cons v vs => exact stops_cons (by decide) (by decide) (by decide) (by decide)

theorem stops_printMoreMembers (style : Style) (ms : List (String × Value Token)) (rest : List Char) :
    Stops (printMoreMembers style ms ++ rest) := by
  cases ms with
  | nil => exact stops_cons (by decide) (by decide) (by decide) (by decide)
  | cons m ms => exact stops_cons (by decide) (by decide) (by decide) (by decide)

theorem scanArray_items (scan : Scanner N E) {c : Char} (solid : isWhitespace c = false)
    (bracket : c ≠ ']') (cs : List Char) :
    scanArray scan (c :: cs) =
      (scanItems scan ((c :: cs).length + 1) (c :: cs)).map fun (vs, rest) => (.arr vs, rest) := by
  unfold scanArray
  rw [skipWs_cons solid]
  split
  · rename_i same
    exact absurd (List.cons.inj same).1 bracket
  · rfl

theorem scanObject_members (scan : Scanner N E) {c : Char} (solid : isWhitespace c = false)
    (brace : c ≠ '\x7d') (cs : List Char) :
    scanObject scan (c :: cs) =
      (scanMembers scan ((c :: cs).length + 1) (c :: cs)).map
        fun (ms, rest) => (.obj (dictOf ms), rest) := by
  unfold scanObject
  rw [skipWs_cons solid]
  split
  · rename_i same
    exact absurd (List.cons.inj same).1 brace
  · rfl

/-- One member, its value scanned by `scan`. -/
theorem scanMember_print {scan : Scanner N E} {k : String} {v : Value Token} {rest : List Char}
    {read : Except E (Value N)} (value : scan (print style v ++ rest) = hooked read rest) :
    scanMember scan (style.string k ++ (':' :: (style.afterKey ++ (print style v ++ rest)))) =
      hooked (read.map fun v => (k, v)) rest := by
  simp only [Style.string, List.cons_append, scanMember, scanString_body,
    skipWs_cons (c := ':') (by decide), skipWs_blank style.afterKey_blank, skipWs_print, value]
  cases read <;> rfl

mutual

/-- A printed value reads back, whatever follows it. -/
theorem scanOnce_print {depth : Nat} : ∀ (v : Value Token), v.depth ≤ depth →
    ∀ {rest : List Char}, Stops rest →
      scanOnce number depth (print style v ++ rest) = hooked (v.decoded number) rest
  | .null, _, rest, _ => by
      rw [print, List.cons_append, scanOnce_scalar depth (by decide) (by decide)]
      rfl
  | .bool true, _, rest, _ => by
      rw [print, List.cons_append, scanOnce_scalar depth (by decide) (by decide)]
      rfl
  | .bool false, _, rest, _ => by
      rw [print, List.cons_append, scanOnce_scalar depth (by decide) (by decide)]
      rfl
  | .int i, _, rest, stop => by
      rw [print, scanOnce_number depth _ stop, Value.decoded, Value.decode]
  | .num (.number t), _, rest, stop => by
      rw [print, Token.text, scanOnce_number depth _ stop, Value.decoded, Value.decode]
  | .num .nan, _, rest, _ => by
      rw [print, Token.text, List.cons_append, scanOnce_scalar depth (by decide) (by decide)]
      rfl
  | .num .infinity, _, rest, _ => by
      rw [print, Token.text, List.cons_append, scanOnce_scalar depth (by decide) (by decide)]
      rfl
  | .num .negInfinity, _, rest, _ => by
      rw [print, Token.text, List.cons_append, scanOnce_scalar depth (by decide) (by decide)]
      rfl
  | .str s, _, rest, _ => by
      rw [print, Style.string, List.cons_append, scanOnce_scalar depth (by decide) (by decide)]
      simp only [scanScalar, scanString_body]
      rfl
  | .arr [], bound, rest, _ => by
      obtain ⟨depth, rfl⟩ := Nat.exists_eq_add_one_of_ne_zero (Nat.ne_of_gt bound)
      rfl
  | .arr (v :: vs), bound, rest, _ => by
      simp only [Value.depth] at bound
      obtain ⟨depth, rfl⟩ : ∃ d, depth = d + 1 := ⟨depth - 1, by omega⟩
      obtain ⟨c, cs, split, solid, bracket, -⟩ := print_starts style v
      have enough : vs.length < (print style v ++ (printMoreItems style vs ++ rest)).length + 1 := by
        have := length_printMoreItems style vs
        simp only [List.length_append]
        omega
      have items := @scanItems_print depth rest _ v vs (by omega) enough
      rw [print, printItems, List.cons_append, List.append_assoc]
      rw [split, List.cons_append] at items ⊢
      simp only [scanOnce]
      rw [scanArray_items _ solid bracket, items, Value.decoded, Value.decode]
      cases decodeItems (fun i => number (.number (.ofInt i))) number (v :: vs) <;> rfl
  | .obj [], bound, rest, _ => by
      obtain ⟨depth, rfl⟩ := Nat.exists_eq_add_one_of_ne_zero (Nat.ne_of_gt bound)
      rfl
  | .obj ((k, v) :: ms), bound, rest, _ => by
      simp only [Value.depth] at bound
      obtain ⟨depth, rfl⟩ : ∃ d, depth = d + 1 := ⟨depth - 1, by omega⟩
      have enough : ms.length < (printMembers style ((k, v) :: ms) ++ rest).length + 1 := by
        have := length_printMoreMembers style ms
        simp only [printMembers, List.length_append, List.length_cons]
        omega
      have members := @scanMembers_print depth rest _ k v ms (by omega) enough
      rw [print, List.cons_append]
      rw [printMembers, Style.string, List.cons_append, List.cons_append] at members ⊢
      simp only [scanOnce]
      rw [scanObject_members _ (by decide) (by decide), members, Value.decoded, Value.decode]
      cases decodeMembers (fun i => number (.number (.ofInt i))) number ((k, v) :: ms) <;> rfl

theorem scanItems_print {depth : Nat} {rest : List Char} : ∀ {fuel : Nat}
    (v : Value Token) (vs : List (Value Token)), depthItems (v :: vs) ≤ depth →
      vs.length < fuel →
      scanItems (scanOnce number depth) fuel (print style v ++ (printMoreItems style vs ++ rest)) =
        hooked (decodeItems (fun i => number (.number (.ofInt i))) number (v :: vs)) rest
  | 0, _, _, _, enough => absurd enough (Nat.not_lt_zero _)
  | fuel + 1, v, [], bound, _ => by
      have value := @scanOnce_print depth v
        (Nat.le_trans (Nat.le_max_left _ _) bound) _ (stops_printMoreItems style [] rest)
      simp only [scanItems, value, decodeItems, Value.decoded]
      cases v.decode (fun i => number (.number (.ofInt i))) number <;> rfl
  | fuel + 1, v, v' :: vs, bound, enough => by
      have value := @scanOnce_print depth v
        (Nat.le_trans (Nat.le_max_left _ _) bound) _
        (stops_printMoreItems style (v' :: vs) rest)
      have items := @scanItems_print depth rest fuel v' vs
        (Nat.le_trans (Nat.le_max_right _ _) bound) (Nat.lt_of_succ_lt_succ enough)
      rw [decodeItems]
      simp only [scanItems, value, Value.decoded]
      cases v.decode (fun i => number (.number (.ofInt i))) number with
      | error e => rfl
      | ok w =>
          simp only [hooked, printMoreItems, List.cons_append, List.append_assoc,
            skipWs_cons (c := ',') (by decide), skipWs_blank style.afterItem_blank, skipWs_print, items]
          cases decodeItems (fun i => number (.number (.ofInt i))) number (v' :: vs) <;> rfl

theorem scanMembers_print {depth : Nat} {rest : List Char} : ∀ {fuel : Nat}
    (k : String) (v : Value Token) (ms : List (String × Value Token)),
      depthMembers ((k, v) :: ms) ≤ depth → ms.length < fuel →
      scanMembers (scanOnce number depth) fuel (printMembers style ((k, v) :: ms) ++ rest) =
        hooked (decodeMembers (fun i => number (.number (.ofInt i))) number ((k, v) :: ms)) rest
  | 0, _, _, _, _, enough => absurd enough (Nat.not_lt_zero _)
  | fuel + 1, k, v, [], bound, _ => by
      have value := @scanOnce_print depth v
        (Nat.le_trans (Nat.le_max_left _ _) bound) _ (stops_printMoreMembers style [] rest)
      have member := scanMember_print (k := k) value
      simp only [printMembers, List.append_assoc, List.cons_append, scanMembers, member, decodeMembers,
        Value.decoded]
      cases v.decode (fun i => number (.number (.ofInt i))) number <;> rfl
  | fuel + 1, k, v, (k', v') :: ms, bound, enough => by
      have value := @scanOnce_print depth v
        (Nat.le_trans (Nat.le_max_left _ _) bound) _
        (stops_printMoreMembers style ((k', v') :: ms) rest)
      have member := scanMember_print (k := k) value
      have members := @scanMembers_print depth rest fuel k' v' ms
        (Nat.le_trans (Nat.le_max_right _ _) bound) (Nat.lt_of_succ_lt_succ enough)
      rw [decodeMembers]
      simp only [printMembers, List.append_assoc, List.cons_append] at members ⊢
      simp only [scanMembers, member, Value.decoded]
      cases v.decode (fun i => number (.number (.ofInt i))) number with
      | error e => rfl
      | ok w =>
          have quote : ∀ cs, skipWs (style.string k' ++ cs) = style.string k' ++ cs := fun cs =>
            skipWs_cons (c := '"') (by decide) _
          simp only [Except.map, hooked, printMoreMembers, List.cons_append, List.append_assoc,
            skipWs_cons (c := ',') (by decide), skipWs_blank style.afterItem_blank, quote, members]
          cases decodeMembers (fun i => number (.number (.ofInt i))) number ((k', v') :: ms) <;> rfl

end

/-- A printed text reads back as the value it was printed from. -/
theorem loads_print {depth : Nat} {v : Value Token} (bound : v.depth ≤ depth) :
    loads number depth (print style v) =
      match v.decoded number with
      | .ok v => .ok v
      | .error e => .error (.number e) := by
  obtain ⟨c, cs, split, solid, -, mark⟩ := print_starts style v
  have noMark : (print style v).head? ≠ some '\uFEFF' := by
    rw [split]
    exact fun same => mark (Option.some.inj same)
  have read := @scanOnce_print _ _ number style _ v bound _ stops_nil
  have start := skipWs_print style v []
  rw [List.append_nil] at read start
  rw [loads, if_neg noMark, start, read]
  cases v.decoded number <;> rfl

end Relay.Json
