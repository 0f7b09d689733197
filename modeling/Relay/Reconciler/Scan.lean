import Relay.Reconciler.Accusations
import Relay.Reconciler.Repair

/-!
What a scan of the orders gives.

The pages of a scan cover every key once, in the services' order of the keys.
While the tables stay as they are, the versions of all pages together are those
that the tables store (`stores_of_scan`).
-/

namespace Relay.Reconciler

open Relay.Platform Relay.Python Relay.Effect Relay.Erp Relay.Dynamo Relation

theorem lookup_setVersion (key : String) (version : Int) (versions : Versions) (id : String) :
    (setVersion key version versions).lookup id =
      if id = key then some version else versions.lookup id := by
  induction versions with
  | nil =>
      by_cases same : id = key
      · simp [setVersion, same]
      · have other : (id == key) = false := by simpa using same
        simp [setVersion, List.lookup_cons, same, other]
  | cons entry rest ih =>
      obtain ⟨k, v⟩ := entry
      rw [setVersion]
      split
      · rename_i same
        subst same
        rw [List.lookup_cons, List.lookup_cons]
        by_cases same : id = k
        · simp [same]
        · have other : (id == k) = false := by simpa using same
          simp [same, other]
      · rename_i apart
        rw [List.lookup_cons, List.lookup_cons, ih]
        by_cases same : id = k
        · subst same
          simp [apart]
        · have other : (id == k) = false := by simpa using same
          simp [other]

/-- The item of an order with a version. -/
def Versioned (item : Item) (id : String) (version : Int) : Prop :=
  item "order_id" = some (.s id) ∧ item "version" = some (.n version)

theorem storedVersion_of_versioned {item : Item} {id : String} {version : Int}
    (versioned : Versioned item id version) : storedVersion (some item) = .ok version := by
  simp [storedVersion, versioned.2]

/-- Every item of a ledger's orders is versioned under its key. -/
theorem versioned_of_kept {s : State Table} (kept : Kept s) {id : String} {item : Item}
    (here : s.db .orders id = some item) : ∃ version, Versioned item id version := by
  obtain ⟨ledger, is⟩ := kept
  obtain ⟨first, last, -, -, rfl⟩ := is.last here
  exact ⟨last.order.version, rfl, rfl⟩

/-- The versions after the items of a page. -/
theorem lookup_addItems {items : List Item} {versions versions' : Versions}
    (added : addItems versions items = .ok versions') {stored : String → Option Int}
    (each : ∀ item ∈ items, ∃ id version, Versioned item id version ∧ stored id = some version)
    (id : String) :
    ((∃ item ∈ items, ∃ version, Versioned item id version) ∧ versions'.lookup id = stored id) ∨
      ((∀ item ∈ items, ∀ version, ¬ Versioned item id version) ∧
        versions'.lookup id = versions.lookup id) := by
  induction items generalizing versions with
  | nil =>
      cases added
      exact .inr ⟨by simp, rfl⟩
  | cons item rest ih =>
      obtain ⟨key, version, versioned, own⟩ := each item List.mem_cons_self
      have others := fun item mem => each item (List.mem_cons_of_mem _ mem)
      have added : addItems (setVersion key version versions) rest = .ok versions' := by
        rw [addItems, versioned.1, storedVersion_of_versioned versioned] at added
        exact added
      rcases ih added others with ⟨⟨item', mem, later⟩, there⟩ | ⟨never, there⟩
      · exact .inl ⟨⟨item', List.mem_cons_of_mem _ mem, later⟩, there⟩
      · rw [lookup_setVersion] at there
        by_cases same : id = key
        · subst same
          rw [if_pos rfl, ← own] at there
          exact .inl ⟨⟨item, List.mem_cons_self, version, versioned⟩, there⟩
        · rw [if_neg same] at there
          refine .inr ⟨fun item' mem version' versioned' => ?_, there⟩
          rcases List.mem_cons.mp mem with rfl | mem
          · have ids := versioned.1.symm.trans versioned'.1
            exact same (AttrVal.s.inj (Option.some.inj ids)).symm
          · exact never item' mem version' versioned'

section Pages

variable {S : Services}

/-- The keys that a scan from `start` has still to visit. -/
def Ahead (S : Services) (start : Option String) (id : String) : Prop :=
  ∀ key ∈ start, S.rank key < S.rank id

/-- The version that the tables store for an order. -/
def versionIn (s : State Table) (id : String) : Option AttrVal :=
  (s.db .orders id).bind fun item => item "version"

/-- One page carries the versions on to the keys it covers. -/
theorem lookup_page {s : State Table} (kept : Kept s) {start : Option String} {page : Page}
    (isPage : S.IsPage (s.db .orders) start page) {versions versions' : Versions}
    (fresh : ∀ id, Ahead S start id → versions.lookup id = none)
    (added : addItems versions page.items = .ok versions') (id : String) :
    (S.Covers start page.lastEvaluatedKey id ∧
        (versions'.lookup id).map (fun (version : Int) => AttrVal.n version) = versionIn s id) ∨
      (¬ S.Covers start page.lastEvaluatedKey id ∧ versions'.lookup id = versions.lookup id) := by
  -- The version of an order's item, as the scan reads it.
  obtain ⟨stored, own⟩ : ∃ stored : String → Option Int, ∀ id item version,
      s.db .orders id = some item → Versioned item id version → stored id = some version := by
    refine ⟨fun id => (versionIn s id).bind fun
      | .n value => some value.num
      | .s _ => none, fun id item version here versioned => ?_⟩
    simp [versionIn, here, versioned.2]
  have keyed : ∀ item ∈ page.items, ∃ id version, S.Covers start page.lastEvaluatedKey id ∧
      s.db .orders id = some item ∧ Versioned item id version := by
    intro item mem
    obtain ⟨key, covers, here⟩ := isPage.sound item mem
    obtain ⟨version, versioned⟩ := versioned_of_kept kept here
    exact ⟨key, version, covers, here, versioned⟩
  have each : ∀ item ∈ page.items, ∃ id version, Versioned item id version ∧ stored id = some version := by
    intro item mem
    obtain ⟨id, version, -, here, versioned⟩ := keyed item mem
    exact ⟨id, version, versioned, own id item version here versioned⟩
  rcases lookup_addItems added each id with ⟨⟨item, mem, version, versioned⟩, there⟩ | ⟨never, there⟩
  · obtain ⟨id', version', covers, here, versioned'⟩ := keyed item mem
    have same : id' = id :=
      AttrVal.s.inj (Option.some.inj (versioned'.1.symm.trans versioned.1))
    subst same
    refine .inl ⟨covers, ?_⟩
    rw [there, own id' item version here versioned, versionIn, here]
    exact versioned.2.symm
  · by_cases covers : S.Covers start page.lastEvaluatedKey id
    · refine .inl ⟨covers, ?_⟩
      cases here : s.db .orders id with
      | none => rw [there, fresh id covers.1, versionIn, here]; rfl
      | some item =>
          obtain ⟨version, versioned⟩ := versioned_of_kept kept here
          exact absurd versioned (never item (isPage.complete id item covers here) version)
    · exact .inr ⟨covers, there⟩

theorem outsideErp_star {w w' : World} (moves : ReflTransGen OutsideErp w w') : w'.erp = w.erp := by
  induction moves with
  | refl => rfl
  | tail _ move ih => exact move.trans ih

/-- A scan that ends has visited every key ahead of its start. -/
theorem lookup_scanPages {fuel : Nat} {start : Option String} {versions versions' : Versions}
    {w w' : World} (kept : Kept w.erp) (fresh : ∀ id, Ahead S start id → versions.lookup id = none)
    (run : Exec S.Answers OutsideErp (scanPages fuel start versions) w (some (.ok versions')) w')
    (id : String) :
    (Ahead S start id → (versions'.lookup id).map (fun (version : Int) => AttrVal.n version) =
        versionIn w.erp id) ∧
      (¬ Ahead S start id → versions'.lookup id = versions.lookup id) := by
  induction fuel generalizing start versions w with
  | zero =>
      obtain ⟨done, -⟩ := Exec.of_ret run
      cases done
  | succ fuel ih =>
      unfold scanPages at run
      obtain ⟨w₁, reply, w₂, moves, ⟨rfl, pages⟩, run⟩ := Exec.of_perform_bind run
      have same := outsideErp_star moves
      cases reply with
      | error fault =>
          obtain ⟨failed, -⟩ := Exec.of_ret run
          cases failed
      | ok page =>
          have isPage := pages page rfl
          rw [same] at isPage
          dsimp only at run
          split at run
          · obtain ⟨failed, -⟩ := Exec.of_ret run
            cases failed
          · rename_i versions₁ added
            have first := lookup_page kept isPage fresh added
            split at run
            · rename_i last
              obtain ⟨done, -⟩ := Exec.of_ret run
              cases done
              rcases first id with ⟨covers, there⟩ | ⟨outside, there⟩
              · exact ⟨fun _ => there, fun behind => absurd covers.1 behind⟩
              · exact ⟨fun ahead => absurd ⟨ahead, by simp [last]⟩ outside, fun _ => there⟩
            · rename_i last here
              have later : ∀ id, Ahead S (some last) id → Ahead S start id ∧
                  ¬ S.Covers start page.lastEvaluatedKey id := by
                intro id ahead
                have above : S.rank last < S.rank id := ahead last rfl
                refine ⟨fun key mem => ?_, fun covers => ?_⟩
                · exact (isPage.advances key mem last (by simp [here])).trans above
                · exact absurd (covers.2 last (by simp [here])) (not_le.mpr above)
              have fresh₁ : ∀ id, Ahead S (some last) id → versions₁.lookup id = none := by
                intro id ahead
                rcases first id with ⟨covers, -⟩ | ⟨-, there⟩
                · exact absurd covers (later id ahead).2
                · rw [there]
                  exact fresh id (later id ahead).1
              obtain ⟨onward, behind⟩ := ih (same ▸ kept) fresh₁ run
              rw [same] at onward
              by_cases ahead : Ahead S (some last) id
              · exact ⟨fun _ => onward ahead, fun notAhead => absurd (later id ahead).1 notAhead⟩
              · rw [behind ahead]
                rcases first id with ⟨covers, there⟩ | ⟨outside, there⟩
                · exact ⟨fun _ => there, fun notAhead => absurd covers.1 notAhead⟩
                · refine ⟨fun notYet => absurd ⟨notYet, ?_⟩ outside, fun _ => there⟩
                  intro key mem
                  obtain rfl : last = key := by simpa [here] using mem
                  by_contra above
                  exact ahead fun key mem => by
                    cases mem
                    exact not_le.mp above

/-- While the tables do not change, a scan gives the versions that they store. -/
theorem stores_of_scan {fuel : Nat} {versions : Versions} {w w' : World} (kept : Kept w.erp)
    (run : Exec S.Answers OutsideErp (scanOrderVersions fuel) w (some (.ok versions)) w') :
    Stores versions w.erp := by
  intro id
  have ahead : Ahead S none id := by
    rintro key ⟨⟩
  exact ((lookup_scanPages kept (fun _ _ => rfl) run id).1 ahead).symm

end Pages

end Relay.Reconciler
