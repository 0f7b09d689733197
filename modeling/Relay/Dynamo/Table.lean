import Mathlib.Algebra.Order.Field.Rat
import Mathlib.Data.Rat.Defs
import Mathlib.Logic.Function.Basic

/-!
Tables of items and all-or-nothing conditional writes.

An item is a map from attribute names to values, a database a map from a table
and a key to an item. An `Update` is one entry of a transactional write: SET
actions whose operands read the item as it was, and an optional condition on
that item. `transact` checks every condition first and then writes every item,
or writes nothing.

`Answers` is what a client may see of one transactional write: it commits or it
does not; success is reported only for a commit, but an error may be reported
for either, and a failed condition is reported only for a condition that is
false of the items as they then are.
-/

namespace Relay.Dynamo

/-- A string or a number. Numbers are stored by value. -/
inductive AttrVal where
  | s (text : String)
  | n (value : ℚ)
deriving DecidableEq

/-- The attributes of one item. -/
abbrev Item := String → Option AttrVal

/-- Attribute `name` of an item that may not exist. -/
def attr (old : Option Item) (name : String) : Option AttrVal := old.bind fun item => item name

@[simp] theorem attr_some (item : Item) (name : String) : attr (some item) name = item name := rfl

/-- The right-hand side of a SET action. -/
inductive Operand where
  | value (v : AttrVal)
  | ifNotExists (name : String) (v : AttrVal)
  | plus (left right : Operand)

/-- The value of an operand over the item before the update. Only numbers add. -/
def Operand.eval (old : Option Item) : Operand → Option AttrVal
  | .value v => some v
  | .ifNotExists name v => some ((attr old name).getD v)
  | .plus left right =>
      match left.eval old, right.eval old with
      | some (.n x), some (.n y) => some (.n (x + y))
      | _, _ => none

/-- A condition expression. -/
inductive Condition where
  | attributeNotExists (name : String)
  | lessThan (name : String) (v : AttrVal)
  | or (left right : Condition)

/-- A comparison is false of a missing attribute and of values of two types. -/
def Condition.holds (old : Option Item) : Condition → Bool
  | .attributeNotExists name => (attr old name).isNone
  | .lessThan name v =>
      match attr old name, v with
      | some (.n x), .n y => decide (x < y)
      | some (.s x), .s y => decide (x < y)
      | _, _ => false
  | .or left right => left.holds old || right.holds old

/-- One `Update` of a transactional write. -/
structure Update (T : Type) where
  table : T
  keyAttr : String
  key : String
  set : List (String × Operand)
  condition : Option Condition

/-- A database: an item for each table and key that has one. -/
abbrev Db (T : Type) := T → String → Option Item

variable {T : Type}

def Update.conditionHolds (u : Update T) (old : Option Item) : Bool :=
  match u.condition with
  | none => true
  | some c => c.holds old

/-- Write the values of a list of SET actions over `item`. Every operand reads
`old`, the item as it was before the first of them. -/
def assign (old : Option Item) : Item → List (String × Operand) → Option Item
  | item, [] => some item
  | item, (name, operand) :: rest =>
      match operand.eval old with
      | none => none
      | some v => assign old (Function.update item name (some v)) rest

/-- The item an update leaves: the old attributes, or only the key of a new
item, with every SET action's value written over them. -/
def Update.apply (u : Update T) (old : Option Item) : Option Item :=
  assign old (old.getD (Function.update (fun _ => none) u.keyAttr (some (.s u.key)))) u.set

/-- An item from its attributes. -/
def ofFields (fields : List (String × AttrVal)) : Item := fun name => fields.lookup name

theorem lookup_none_iff {fields : List (String × AttrVal)} {name : String} :
    fields.lookup name = none ↔ name ∉ fields.map Prod.fst := by
  rw [List.lookup_eq_none_iff]
  constructor
  · intro apart mem
    obtain ⟨field, member, rfl⟩ := List.mem_map.mp mem
    simpa using apart field member
  · intro fresh field member
    rw [bne_iff_ne]
    rintro rfl
    exact fresh (List.mem_map_of_mem member)

/-- Writing distinct attributes puts their values in front of the item. -/
theorem assign_fields {old : Option Item} {set : List (String × Operand)}
    {fields : List (String × AttrVal)}
    (evaluated : set.map (fun action => (action.1, action.2.eval old)) =
      fields.map fun field => (field.1, some field.2))
    (distinct : (fields.map Prod.fst).Nodup) (item : Item) :
    assign old item set = some fun name => (fields.lookup name).or (item name) := by
  induction fields generalizing set item with
  | nil =>
      obtain rfl : set = [] := by simpa using evaluated
      rfl
  | cons field fields ih =>
      obtain ⟨name, v⟩ := field
      cases set with
      | nil => simp at evaluated
      | cons action set =>
          obtain ⟨name', operand⟩ := action
          simp only [List.map_cons, List.cons.injEq, Prod.mk.injEq] at evaluated
          obtain ⟨⟨rfl, value⟩, evaluated⟩ := evaluated
          obtain ⟨fresh, distinct⟩ := List.nodup_cons.mp distinct
          simp only [assign, value, ih evaluated distinct, Option.some.injEq]
          funext other
          by_cases same : other = name'
          · subst same
            simp [lookup_none_iff.mpr fresh]
          · have apart : (other == name') = false := by simp [same]
            simp [List.lookup_cons, apart, same]

/-- An update that writes the same attributes each time leaves their new values
and the key, whether or not it was applied before. -/
theorem Update.apply_fields {u : Update T} {old : Option Item} {fields : List (String × AttrVal)}
    (evaluated : u.set.map (fun action => (action.1, action.2.eval old)) =
      fields.map fun field => (field.1, some field.2))
    (distinct : (fields.map Prod.fst).Nodup)
    (before : ∀ item ∈ old, ∃ fields', fields'.map Prod.fst = fields.map Prod.fst ∧
      item = ofFields (fields' ++ [(u.keyAttr, .s u.key)])) :
    u.apply old = some (ofFields (fields ++ [(u.keyAttr, .s u.key)])) := by
  rw [Update.apply, assign_fields evaluated distinct]
  simp only [Option.some.injEq]
  funext name
  simp only [ofFields, List.lookup_append]
  cases found : fields.lookup name with
  | some v => rfl
  | none =>
      simp only [Option.none_or]
      cases old with
      | none =>
          by_cases key : name = u.keyAttr
          · simp [key]
          · have apart : (name == u.keyAttr) = false := by simp [key]
            simp [List.lookup_cons, key, apart]
      | some item =>
          obtain ⟨fields', names, rfl⟩ := before item rfl
          have absent : fields'.lookup name = none :=
            lookup_none_iff.mpr (names ▸ lookup_none_iff.mp found)
          simp [ofFields, List.lookup_append, absent]

/-- SET actions whose operands have values all take effect. -/
theorem assign_isSome {old : Option Item} {set : List (String × Operand)}
    (defined : ∀ action ∈ set, (action.2.eval old).isSome = true) (item : Item) :
    (assign old item set).isSome = true := by
  induction set generalizing item with
  | nil => rfl
  | cons action rest ih =>
      obtain ⟨v, value⟩ := Option.isSome_iff_exists.mp (defined action List.mem_cons_self)
      simp only [assign, value]
      exact ih (fun other mem => defined other (List.mem_cons_of_mem _ mem)) _

/-- The item an update addresses. -/
def Update.target (u : Update T) : T × String := (u.table, u.key)

variable [DecidableEq T]

def Db.put (db : Db T) (table : T) (key : String) (item : Item) : Db T := fun table' key' =>
  if table' = table ∧ key' = key then some item else db table' key'

@[simp] theorem Db.put_self (db : Db T) (table : T) (key : String) (item : Item) :
    db.put table key item table key = some item := by simp [Db.put]

theorem Db.put_ne (db : Db T) {table table' : T} {key key' : String} (item : Item)
    (other : (table', key') ≠ (table, key)) : db.put table key item table' key' = db table' key' := by
  simp only [Db.put]
  rw [if_neg]
  rintro ⟨rfl, rfl⟩
  exact other rfl

/-- Write every item of a transaction. -/
def Db.writeAll : Db T → List (Update T) → Option (Db T)
  | db, [] => some db
  | db, u :: rest =>
      match u.apply (db u.table u.key) with
      | none => none
      | some item => writeAll (db.put u.table u.key item) rest

/-- A transactional write of `us`: no item twice, every condition true, then
every item written; `none` when it is cancelled. -/
def Db.transact (db : Db T) (us : List (Update T)) : Option (Db T) :=
  if (us.map Update.target).Nodup ∧ ∀ u ∈ us, u.conditionHolds (db u.table u.key) = true then
    db.writeAll us
  else none

theorem Db.writeAll_frame {us : List (Update T)} {db db' : Db T} (written : db.writeAll us = some db')
    {table : T} {key : String} (other : ∀ u ∈ us, u.target ≠ (table, key)) :
    db' table key = db table key := by
  induction us generalizing db with
  | nil =>
      obtain rfl : db = db' := by simpa [writeAll] using written
      rfl
  | cons u rest ih =>
      cases applied : u.apply (db u.table u.key) with
      | none => simp [writeAll, applied] at written
      | some item =>
          simp only [writeAll, applied] at written
          rw [ih written fun v mem => other v (List.mem_cons_of_mem _ mem)]
          exact Db.put_ne db item fun same => other u List.mem_cons_self same.symm

/-- Each addressed item becomes what its update makes of the item before the
transaction: no update of the list sees another's write. -/
theorem Db.writeAll_target {us : List (Update T)} {db db' : Db T}
    (distinct : (us.map Update.target).Nodup) (written : db.writeAll us = some db')
    {u : Update T} (mem : u ∈ us) :
    u.apply (db u.table u.key) = db' u.table u.key ∧ (db' u.table u.key).isSome = true := by
  induction us generalizing db with
  | nil => cases mem
  | cons v rest ih =>
      obtain ⟨fresh, distinct⟩ := List.nodup_cons.mp distinct
      cases applied : v.apply (db v.table v.key) with
      | none => simp [writeAll, applied] at written
      | some item =>
          simp only [writeAll, applied] at written
          have apart : ∀ w ∈ rest, w.target ≠ (v.table, v.key) := fun w hw same =>
            fresh (List.mem_map.mpr ⟨w, hw, same⟩)
          rcases List.mem_cons.mp mem with rfl | mem
          · have kept := writeAll_frame written apart
            rw [Db.put_self] at kept
            exact ⟨by rw [kept, applied], by rw [kept]; rfl⟩
          · have untouched : (db.put v.table v.key item) u.table u.key = db u.table u.key :=
              Db.put_ne db item (apart u mem)
            have := ih distinct written mem
            rwa [untouched] at this

theorem Db.transact_written {us : List (Update T)} {db db' : Db T}
    (committed : db.transact us = some db') :
    (us.map Update.target).Nodup ∧ (∀ u ∈ us, u.conditionHolds (db u.table u.key) = true) ∧
      db.writeAll us = some db' := by
  unfold transact at committed
  split at committed
  · rename_i checked
    exact ⟨checked.1, checked.2, committed⟩
  · cases committed

/-- A commit leaves every item that it does not address as it was. -/
theorem Db.transact_frame {us : List (Update T)} {db db' : Db T}
    (committed : db.transact us = some db') {table : T} {key : String}
    (other : ∀ u ∈ us, u.target ≠ (table, key)) : db' table key = db table key :=
  writeAll_frame (transact_written committed).2.2 other

/-- A commit leaves each addressed item as its update makes it. -/
theorem Db.transact_target {us : List (Update T)} {db db' : Db T}
    (committed : db.transact us = some db') {u : Update T} (mem : u ∈ us) :
    u.apply (db u.table u.key) = db' u.table u.key ∧ (db' u.table u.key).isSome = true :=
  writeAll_target (transact_written committed).1 (transact_written committed).2.2 mem

/-- A commit happens only when every condition is true. -/
theorem Db.transact_condition {us : List (Update T)} {db db' : Db T}
    (committed : db.transact us = some db') {u : Update T} (mem : u ∈ us) :
    u.conditionHolds (db u.table u.key) = true :=
  (transact_written committed).2.1 u mem

/-! ### What a client sees of a write -/

/-- One entry of `CancellationReasons`. -/
structure CancellationReason where
  code : Option String
  item : Option Item

/-- The response that a client error carries. -/
structure ErrorResponse where
  code : Option String
  message : Option String
  reasons : List CancellationReason

/-- A failed call: a client error with its response, or any other exception. -/
inductive Fault where
  | client (response : ErrorResponse)
  | other (typeName message : String)

/-- A database and the transactions committed to it so far, oldest first. -/
structure State (T : Type) where
  db : Db T
  log : List (List (Update T))

def State.empty : State T := ⟨fun _ _ => none, []⟩

/-- `us` commits. -/
def Committed (us : List (Update T)) (s s' : State T) : Prop :=
  s.db.transact us = some s'.db ∧ s'.log = s.log ++ [us]

/-- An error names a failed condition only where the condition is false of the
stored item, and returns no other item than that one. -/
def Truthful (us : List (Update T)) (response : ErrorResponse) (db : Db T) : Prop :=
  ∀ (i : Nat) (u : Update T) (reason : CancellationReason),
    us[i]? = some u → response.reasons[i]? = some reason →
    reason.code = some "ConditionalCheckFailed" →
      u.conditionHolds (db u.table u.key) = false ∧
        ∀ item, reason.item = some item → db u.table u.key = some item

/-- One transactional write as its client sees it. -/
def Answers (us : List (Update T)) (s : State T) (reply : Except Fault Unit) (s' : State T) : Prop :=
  (s' = s ∨ Committed us s s') ∧
    match reply with
    | .ok () => Committed us s s'
    | .error (.client response) => Truthful us response s'.db
    | .error (.other _ _) => True

theorem Answers.cases {us : List (Update T)} {s s' : State T} {reply : Except Fault Unit}
    (answered : Answers us s reply s') : s' = s ∨ Committed us s s' := answered.1

end Relay.Dynamo
