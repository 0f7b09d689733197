import Mathlib.Data.List.Nodup
import Relay.Json.Number

/-!
JSON values over a type of numbers.

Integers are a case of their own; every other number is an `N`, so that one type
serves a document (numbers as texts), a decoder that keeps texts and one that
rounds. Objects are lists of members in document order. `dictOf` is what a
decoder that builds a dictionary makes of a member list: the last value of a
repeated key, at the key's first place.
-/

namespace Relay.Json

inductive Value (N : Type) where
  | null
  | bool (b : Bool)
  | int (i : Int)
  | num (x : N)
  | str (s : String)
  | arr (items : List (Value N))
  | obj (members : List (String × Value N))

/-- A value that is a number. -/
inductive Number (N : Type) where
  | int (i : Int)
  | num (x : N)
deriving DecidableEq

/-- A number as a document has it: a number text, or one of the three constants
that only lenient encoders write. -/
inductive Token where
  | number (t : NumText)
  | nan
  | infinity
  | negInfinity
deriving DecidableEq

variable {N M : Type}

def Number.value : Number N → Value N
  | .int i => .int i
  | .num x => .num x

/-- A number as a document has it. -/
def Number.token : Number Token → Token
  | .int i => .number (.ofInt i)
  | .num t => t

/-- `d[key] = value`. -/
def dictInsert (key : String) (value : Value N) :
    List (String × Value N) → List (String × Value N)
  | [] => [(key, value)]
  | (k, v) :: rest => if k = key then (k, value) :: rest else (k, v) :: dictInsert key value rest

/-- A dictionary from members in document order. -/
def dictOf (members : List (String × Value N)) : List (String × Value N) :=
  members.foldl (fun d (k, v) => dictInsert k v d) []

theorem dictInsert_fresh {key : String} {value : Value N} {d : List (String × Value N)}
    (fresh : key ∉ d.map Prod.fst) : dictInsert key value d = d ++ [(key, value)] := by
  induction d with
  | nil => rfl
  | cons entry rest ih =>
      obtain ⟨k, v⟩ := entry
      simp only [List.map_cons, List.mem_cons, not_or] at fresh
      simp [dictInsert, Ne.symm fresh.1, ih fresh.2]

/-- Members without a repeated key are their own dictionary. -/
theorem dictOf_of_nodup {members : List (String × Value N)}
    (distinct : (members.map Prod.fst).Nodup) : dictOf members = members := by
  suffices ∀ d : List (String × Value N), (d.map Prod.fst ++ members.map Prod.fst).Nodup →
      members.foldl (fun d (k, v) => dictInsert k v d) d = d ++ members by
    simpa [dictOf] using this [] (by simpa using distinct)
  intro d both
  induction members generalizing d with
  | nil => simp
  | cons entry rest ih =>
      obtain ⟨k, v⟩ := entry
      have fresh : k ∉ d.map Prod.fst := by
        intro mem
        have := (List.nodup_append.mp both).2.2 k mem k (by simp)
        exact this rfl
      simp only [List.foldl_cons, dictInsert_fresh fresh]
      rw [ih (List.nodup_cons.mp distinct).2]
      · simp
      · simpa [List.map_append, List.append_assoc] using both

/-! ### Mapping numbers -/

mutual

/-- Replace every number by what `f` makes of it, from left to right, with the
first failure of `f` as the result; integers are mapped by `g`. -/
def Value.decode {E : Type} (g : Int → Except E (Value M)) (f : N → Except E (Value M)) :
    Value N → Except E (Value M)
  | .null => .ok .null
  | .bool b => .ok (.bool b)
  | .int i => g i
  | .num x => f x
  | .str s => .ok (.str s)
  | .arr items => (decodeItems g f items).map .arr
  | .obj members => (decodeMembers g f members).map fun members => .obj (dictOf members)

def decodeItems {E : Type} (g : Int → Except E (Value M)) (f : N → Except E (Value M)) :
    List (Value N) → Except E (List (Value M))
  | [] => .ok []
  | v :: rest =>
      match v.decode g f with
      | .error e => .error e
      | .ok v => (decodeItems g f rest).map (v :: ·)

def decodeMembers {E : Type} (g : Int → Except E (Value M)) (f : N → Except E (Value M)) :
    List (String × Value N) → Except E (List (String × Value M))
  | [] => .ok []
  | (k, v) :: rest =>
      match v.decode g f with
      | .error e => .error e
      | .ok v => (decodeMembers g f rest).map ((k, v) :: ·)

end

mutual

/-- Replace every number by a value. -/
def Value.map (f : N → M) : Value N → Value M
  | .null => .null
  | .bool b => .bool b
  | .int i => .int i
  | .num x => .num (f x)
  | .str s => .str s
  | .arr items => .arr (mapItems f items)
  | .obj members => .obj (mapMembers f members)

def mapItems (f : N → M) : List (Value N) → List (Value M)
  | [] => []
  | v :: rest => v.map f :: mapItems f rest

def mapMembers (f : N → M) : List (String × Value N) → List (String × Value M)
  | [] => []
  | (k, v) :: rest => (k, v.map f) :: mapMembers f rest

end

mutual

/-- How deeply arrays and objects are nested. -/
def Value.depth : Value N → Nat
  | .arr items => depthItems items + 1
  | .obj members => depthMembers members + 1
  | _ => 0

def depthItems : List (Value N) → Nat
  | [] => 0
  | v :: rest => max v.depth (depthItems rest)

def depthMembers : List (String × Value N) → Nat
  | [] => 0
  | (_, v) :: rest => max v.depth (depthMembers rest)

end

end Relay.Json
