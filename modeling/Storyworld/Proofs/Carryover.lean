import Mathlib.Data.List.Induction
import Storyworld.Proofs.Restoration

/-!
# What a migration keeps

The store keeps nothing that the authored world says already, carries no item twice, and has in the
inventory what is on record as carried (`State.Orderly`). A migration takes overrides over as they
are, although they were told apart from the authored world of another catalog; it may make two items
one; and the new catalog may carry other items from the start. What is kept of these invariants is
said of the state before (`MigrationRule.KeepsOrder`). They are kept whenever the new catalog
authors what the rule makes of the old one (`MigrationRule.Faithful`).
-/

namespace Storyworld

namespace SortedMap

variable {κ κ' α β : Type} [Ord κ] [Std.TransOrd κ] [Std.LawfulEqOrd κ] [Ord κ'] [Std.TransOrd κ']
  [Std.LawfulEqOrd κ']

/-- The key is the last of those in the map that become the same. -/
def Stands (m : SortedMap κ α) (rename : κ → κ') (k : κ) : Prop :=
  ∀ k' ∈ m.keys, rename k' = rename k → compare k' k ≠ .gt

theorem ofList_concat (es : List (κ' × β)) (e : κ' × β) :
    ofList (es ++ [e]) = (ofList es).insert e.1 e.2 := by
  unfold ofList
  rw [List.foldl_append, List.foldl_cons, List.foldl_nil]

variable [DecidableEq κ']

theorem get?_ofList_of_pairwise {l : List (κ × α)}
    (hl : l.Pairwise fun a b => compare a.1 b.1 = .lt) {rename : κ → κ'} {change : α → β} {k' : κ'}
    {b : β} :
    (ofList (l.map fun e => (rename e.1, change e.2))).get? k' = some b ↔
      ∃ e ∈ l, (∀ x ∈ l, rename x.1 = rename e.1 → compare x.1 e.1 ≠ .gt) ∧ rename e.1 = k' ∧
        change e.2 = b := by
  induction l using List.reverseRecOn with
  | nil => simp [ofList]
  | append_singleton l e ih =>
    obtain ⟨hl, -, hlast⟩ := List.pairwise_append.1 hl
    -- By induction from the end: the last entry has the greatest key, and it overwrites the others.
    have hlast : ∀ x ∈ l, compare x.1 e.1 = .lt := fun x hx => hlast x hx e (.head _)
    rw [List.map_append, List.map_singleton, ofList_concat, get?_insert]
    split
    · rename_i hk
      constructor
      · intro h
        refine ⟨e, by simp, fun x hx _ => ?_, hk.symm, Option.some.inj h⟩
        rcases List.mem_append.1 hx with hx | hx
        · rw [hlast x hx]
          decide
        · rw [List.mem_singleton.1 hx, Std.ReflOrd.compare_self]
          decide
      · rintro ⟨x, hx, hstands, hxk, rfl⟩
        rcases List.mem_append.1 hx with hx | hx
        · have hgt : compare e.1 x.1 = .gt := Std.OrientedCmp.gt_iff_lt.2 (hlast x hx)
          exact absurd hgt (hstands e (by simp) (hk.symm.trans hxk.symm))
        · rw [List.mem_singleton.1 hx]
    · rename_i hk
      rw [ih hl]
      constructor
      · rintro ⟨x, hx, hstands, hxk, hb⟩
        refine ⟨x, by simp [hx], fun y hy hyx => ?_, hxk, hb⟩
        rcases List.mem_append.1 hy with hy | hy
        · exact hstands y hy hyx
        · rw [List.mem_singleton.1 hy] at hyx
          exact absurd (hxk.symm.trans hyx.symm) hk
      · rintro ⟨x, hx, hstands, hxk, hb⟩
        rcases List.mem_append.1 hx with hx | hx
        · exact ⟨x, hx, fun y hy => hstands y (by simp [hy]), hxk, hb⟩
        · rw [List.mem_singleton.1 hx] at hxk
          exact absurd hxk.symm hk

/-- Where the keys of a map are renamed, the last of those that become one stands. -/
theorem get?_ofList_map {m : SortedMap κ α} {rename : κ → κ'} {change : α → β} {k' : κ'} {b : β} :
    (ofList (m.toList.map fun e => (rename e.1, change e.2))).get? k' = some b ↔
      ∃ k a, m.get? k = some a ∧ m.Stands rename k ∧ rename k = k' ∧ change a = b := by
  rw [get?_ofList_of_pairwise m.sorted]
  simp only [Prod.exists, ← get?_eq_some_iff, Stands, keys, List.forall_mem_map]

theorem filter_eq_self {m : SortedMap κ α} {keep : κ → α → Bool}
    (h : ∀ k a, m.get? k = some a → keep k a = true) : m.filter keep = m := by
  apply ext_get?
  intro k
  rw [get?_filter]
  cases hk : m.get? k with
  | none => rfl
  | some a => simp [h k a hk]

end SortedMap

/-! ### What is carried over -/

theorem SortedSet.filter_eq_self {s : SortedSet EntityId} {keep : EntityId → Bool}
    (h : ∀ x ∈ s, keep x = true) : s.filter keep = s :=
  SortedSet.ext_mem fun x => SortedSet.mem_filter.trans ⟨And.left, fun hx => ⟨hx, h x hx⟩⟩

theorem State.Declared.discardMissing_eq {c : Catalog} {s : State} (h : s.Declared c) :
    s.discardMissing c = s := by
  have hvictory : (s.victory.filter fun v => c.contains (.victory v)) = s.victory := by
    cases hv : s.victory with
    | none => rfl
    | some v => simp [h.victory v hv]
  have hoverrides : ∀ key o, s.overrides.get? key = some o →
      (c.contains key && o.targets.all c.contains) = true := by
    intro key o ho
    obtain ⟨hkey, htargets⟩ := h.overrides key o ho
    rw [hkey, List.all_eq_true.2 htargets]
    rfl
  unfold discardMissing
  rw [List.filter_eq_self.2 h.inventory, List.filter_eq_self.2 h.fired,
    SortedMap.filter_eq_self h.counters, SortedSet.filter_eq_self h.latched,
    SortedSet.filter_eq_self h.spokes, SortedSet.filter_eq_self h.used, hvictory,
    SortedMap.filter_eq_self hoverrides]

namespace MigrationRule

variable {r : MigrationRule} {c : Catalog} {s : State}

/-- The override of an entity is carried over: it stands where entities become one, and whatever it
is of or names is declared. -/
structure Carries (r : MigrationRule) (c : Catalog) (s : State) (key : EntityKey) (o : Override) :
    Prop where
  held : s.overrides.get? key = some o
  stands : s.overrides.Stands r.renamedKey key
  declared : c.contains (r.renamedKey key) = true
  targets : ∀ k ∈ (r.renameOverride o).targets, c.contains k = true

structure Counts (r : MigrationRule) (c : Catalog) (s : State) (p : EntityId)
    (own : SortedMap String Count) : Prop where
  held : s.counters.get? p = some own
  stands : s.counters.Stands (r.renamed .character) p
  declared : c.contains (.character (r.renamed .character p)) = true

theorem exists_carry_eq (h : (r.carry c s).Declared c) :
    ∃ l, r.carry c s = { (r.renameState s).discardMissing c with location := l } := by
  have hcarry : ∃ l, r.carry c s =
      { if r.discardMissing then (r.renameState s).discardMissing c else r.renameState s with
        location := l } := by
    unfold carry
    dsimp only
    generalize (if r.discardMissing then _ else _) = t
    cases r.relocate with
    | none => exact ⟨t.location, rfl⟩
    | some l =>
      dsimp only
      split
      · exact ⟨t.location, rfl⟩
      · exact ⟨l, rfl⟩
  obtain ⟨l, hl⟩ := hcarry
  refine ⟨l, ?_⟩
  by_cases hd : r.discardMissing = true
  · rw [hl, if_pos hd]
  · rw [if_neg hd] at hl
    rw [← h.discardMissing_eq, hl]
    rfl

theorem inventory_carry (h : (r.carry c s).Declared c) :
    (r.carry c s).inventory =
      (s.inventory.map (r.renamed .item)).filter fun i => c.contains (.item i) := by
  obtain ⟨l, hl⟩ := exists_carry_eq h
  rw [hl]
  rfl

theorem get?_overrides_carry (h : (r.carry c s).Declared c) {key' : EntityKey} {o' : Override} :
    (r.carry c s).overrides.get? key' = some o' ↔
      ∃ key o, r.Carries c s key o ∧ r.renamedKey key = key' ∧ r.renameOverride o = o' := by
  have hget : (r.carry c s).overrides.get? key' =
      ((r.renameState s).overrides.get? key').filter fun o =>
        c.contains key' && o.targets.all c.contains := by
    obtain ⟨l, hl⟩ := exists_carry_eq h
    rw [hl]
    exact SortedMap.get?_filter _ _ _
  have hrenamed : (r.renameState s).overrides = .ofList (s.overrides.toList.map fun e =>
      (r.renamedKey e.1, r.renameOverride e.2)) := rfl
  rw [hget, Option.filter_eq_some_iff, hrenamed, SortedMap.get?_ofList_map, Bool.and_eq_true,
    List.all_eq_true]
  constructor
  · rintro ⟨⟨key, o, hheld, hstands, rfl, rfl⟩, hdeclared, htargets⟩
    exact ⟨key, o, ⟨hheld, hstands, hdeclared, htargets⟩, rfl, rfl⟩
  · rintro ⟨key, o, ho, rfl, rfl⟩
    exact ⟨⟨key, o, ho.held, ho.stands, rfl, rfl⟩, ho.declared, ho.targets⟩

theorem get?_counters_carry (h : (r.carry c s).Declared c) {p' : EntityId}
    {own : SortedMap String Count} :
    (r.carry c s).counters.get? p' = some own ↔
      ∃ p, r.Counts c s p own ∧ r.renamed .character p = p' := by
  have hget : (r.carry c s).counters.get? p' =
      ((r.renameState s).counters.get? p').filter fun _ => c.contains (.character p') := by
    obtain ⟨l, hl⟩ := exists_carry_eq h
    rw [hl]
    exact SortedMap.get?_filter _ _ _
  have hrenamed : (r.renameState s).counters =
      .ofList (s.counters.toList.map fun e => (r.renamed .character e.1, id e.2)) := rfl
  rw [hget, Option.filter_eq_some_iff, hrenamed, SortedMap.get?_ofList_map]
  constructor
  · rintro ⟨⟨p, own', hheld, hstands, rfl, rfl⟩, hdeclared⟩
    exact ⟨p, ⟨hheld, hstands, hdeclared⟩, rfl⟩
  · rintro ⟨p, hp, rfl⟩
    exact ⟨⟨p, own, hp.held, hp.stands, rfl, rfl⟩, hp.declared⟩

end MigrationRule

/-! ### Order -/

open Override (Facet)

/-- The invariants that the store keeps by itself: nothing that it holds is as it was authored, no
item is carried twice, and the inventory is what is on record as carried. -/
structure State.Orderly (c : Catalog) (s : State) : Prop where
  overrides : ∀ key o, s.overrides.get? key = some o → o.Departs c key
  counters : ∀ p own n x, s.counters.get? p = some own → own.get? n = some x →
    x ≠ c.authoredCounter p n
  distinct : s.inventory.Nodup
  carried : ∀ i, c.contains (.item i) = true →
    (i ∈ s.inventory ↔ (View.mk c s).recordedPlacement i = .carried)

namespace State

variable {c : Catalog} {s t : State}

theorem inventory_updateOverride (key : EntityKey) (change : Override → Override) :
    (s.updateOverride key change).inventory = s.inventory := by
  obtain ⟨_, hsame⟩ := exists_updateOverride_eq s key change
  rw [hsame]

theorem nodup_putItem (hs : s.inventory.Nodup) (i : EntityId) (p : Placement) :
    (s.putItem c i p).inventory.Nodup := by
  unfold putItem
  rw [setPlacement_eq, inventory_updateOverride]
  exact hs.filter _

theorem nodup_takeItem (hs : s.inventory.Nodup) (i : EntityId) :
    (s.takeItem c i).inventory.Nodup := by
  unfold takeItem
  rw [setPlacement_eq, inventory_updateOverride, addItem_eq]
  dsimp only
  split
  · exact hs
  · rename_i hi
    refine List.nodup_append.2 ⟨hs, List.nodup_singleton i, fun j hj k hk hjk => hi ?_⟩
    rwa [hjk, List.mem_singleton.1 hk] at hj

theorem nodup_change (hs : s.inventory.Nodup) (e : Effect) : (s.change c e).inventory.Nodup := by
  cases e with
  | setFlag | clearFlag | movePlayer | completeSpoke => exact hs
  | giveItem item => exact nodup_takeItem hs item
  | removeItem item =>
    show (if s.hasItem item = true then s.putItem c item .limbo else s).inventory.Nodup
    split
    · exact nodup_putItem hs item _
    · exact hs
  | destroyItem item | placeItem item | handItem item => exact nodup_putItem hs item _
  | moveCharacter | lockExit | hideExit => exact (inventory_updateOverride _ _).symm ▸ hs
  | adjustCounter p n | setCounter p n =>
    obtain ⟨_, hsame⟩ := exists_setCounter_eq (c := c) (s := s) p n _
    show (s.setCounter c p n _).inventory.Nodup
    rw [hsame]
    exact hs
  | describe key text =>
    show (s.describe c key text).inventory.Nodup
    unfold describe
    split
    · rw [inventory_updateOverride]
      exact hs
    · exact hs
  | advanceAct act =>
    obtain ⟨_, _, hsame⟩ := exists_advanceTo_eq (c := c) (s := s) act
    show (s.advanceTo c act).inventory.Nodup
    rw [hsame]
    exact hs

theorem nodup_kept : Kept c fun s => s.inventory.Nodup := by
  intro s t hs h
  cases h with
  | applied e h =>
    obtain ⟨-, -, rfl⟩ := apply_eq_ok_iff.1 h
    exact nodup_change hs e
  | fired b =>
    rw [markFired_eq]
    exact hs
  | _ => exact hs

/-- Every state that turns lead to is in order, if no item is carried twice at the start. -/
theorem Orderly.reachable (hdistinct : c.start.inventory.Nodup) (hs : Reachable c s) :
    s.Orderly c where
  overrides := (Sparse.reachable hs).departs
  counters := (Sparse.reachable hs).counters
  distinct := nodup_kept.reaches hdistinct hs
  carried i _ := by
    rw [← Tallies.reachable hs i]
    simp [hasItem]

end State

namespace MigrationRule

/-- What becomes of a state under the rule is in order on the catalog. -/
structure KeepsOrder (r : MigrationRule) (c : Catalog) (s : State) : Prop where
  /-- No field that is carried over is authored now. -/
  overrides : ∀ key o, r.Carries c s key o → (r.renameOverride o).Departs c (r.renamedKey key)
  counters : ∀ p own, r.Counts c s p own → ∀ n x, own.get? n = some x →
    x ≠ c.authoredCounter (r.renamed .character p) n
  /-- No two carried items become one. -/
  distinct : ((s.inventory.map (r.renamed .item)).filter fun i => c.contains (.item i)).Nodup
  /-- No item that is laid down becomes one with a carried item and stands for it. -/
  placed : ∀ i o, r.Carries c s (.item i) o → ∀ p ∈ Facet.placement.get o,
    (r.renamed .item i ∈ s.inventory.map (r.renamed .item) ↔ p = .carried)
  /-- The other items are carried as the catalog has them at the start. -/
  unplaced : ∀ i, c.contains (.item i) = true →
    (∀ j o, r.Carries c s (.item j) o → r.renamed .item j = i → Facet.placement.get o = none) →
      (i ∈ s.inventory.map (r.renamed .item) ↔ i ∈ c.start.inventory)

variable {r : MigrationRule} {c : Catalog} {s : State}

theorem placement_renameOverride (o : Override) :
    Facet.placement.get (r.renameOverride o) = (Facet.placement.get o).map r.renamePlacement := by
  cases o <;> rfl

theorem renamePlacement_eq_carried {p : Placement} :
    r.renamePlacement p = .carried ↔ p = .carried := by
  cases p <;> simp [renamePlacement]

theorem mem_inventory_carry (h : (r.carry c s).Declared c) {i : EntityId} :
    i ∈ (r.carry c s).inventory ↔
      i ∈ s.inventory.map (r.renamed .item) ∧ c.contains (.item i) = true := by
  rw [inventory_carry h, List.mem_filter]

theorem recordedPlacement_carry (i : EntityId) :
    (View.mk c (r.carry c s)).recordedPlacement i =
      (((r.carry c s).overrides.get? (.item i)).bind Facet.placement.get).getD
        (c.initialPlacement i) := by
  rw [State.get?_bind]
  exact View.recordedPlacement_eq i

theorem recordedPlacement_of_carries (h : (r.carry c s).Declared c) {i : EntityId} {o : Override}
    (ho : r.Carries c s (.item i) o) {p : Placement} (hp : p ∈ Facet.placement.get o) :
    (View.mk c (r.carry c s)).recordedPlacement (r.renamed .item i) = r.renamePlacement p := by
  have hget : (r.carry c s).overrides.get? (.item (r.renamed .item i)) =
      some (r.renameOverride o) := (get?_overrides_carry h).2 ⟨_, o, ho, rfl, rfl⟩
  rw [recordedPlacement_carry, hget, Option.bind_some, placement_renameOverride,
    Option.mem_def.1 hp]
  rfl

theorem recordedPlacement_of_not_carries (h : (r.carry c s).Declared c) {i : EntityId}
    (hnone : ∀ j o, r.Carries c s (.item j) o → r.renamed .item j = i →
      Facet.placement.get o = none) :
    (View.mk c (r.carry c s)).recordedPlacement i = c.initialPlacement i := by
  rw [recordedPlacement_carry]
  cases ho' : (r.carry c s).overrides.get? (.item i) with
  | none => rfl
  | some o' =>
    obtain ⟨⟨kind, j⟩, o, ho, hkey, rfl⟩ := (get?_overrides_carry h).1 ho'
    cases hkey
    rw [Option.bind_some, placement_renameOverride, hnone j o ho rfl]
    rfl

/-- What a rule makes of a state is in order exactly if the rule keeps the order of the state. -/
theorem orderly_carry_iff (h : (r.carry c s).Declared c) :
    (r.carry c s).Orderly c ↔ r.KeepsOrder c s := by
  constructor
  · intro ht
    refine ⟨fun key o ho => ?_, fun p own hown n x hx => ?_, ?_, fun i o ho p hp => ?_,
      fun i hi hnone => ?_⟩
    · exact ht.overrides _ _ ((get?_overrides_carry h).2 ⟨key, o, ho, rfl, rfl⟩)
    · exact ht.counters _ own n x ((get?_counters_carry h).2 ⟨p, hown, rfl⟩) hx
    · rw [← inventory_carry h]
      exact ht.distinct
    · have hi : c.contains (.item (r.renamed .item i)) = true := ho.declared
      have hcarried := ht.carried _ hi
      rwa [mem_inventory_carry h, and_iff_left hi, recordedPlacement_of_carries h ho hp,
        renamePlacement_eq_carried] at hcarried
    · have hcarried := ht.carried i hi
      rwa [mem_inventory_carry h, and_iff_left hi, recordedPlacement_of_not_carries h hnone,
        Catalog.initialPlacement_eq_carried] at hcarried
  · intro hr
    refine ⟨fun key' o' ho' => ?_, fun p' own n x hown' hx => ?_, ?_, fun i hi => ?_⟩
    · obtain ⟨key, o, ho, rfl, rfl⟩ := (get?_overrides_carry h).1 ho'
      exact hr.overrides key o ho
    · obtain ⟨p, hown, rfl⟩ := (get?_counters_carry h).1 hown'
      exact hr.counters p own hown n x hx
    · rw [inventory_carry h]
      exact hr.distinct
    · rw [mem_inventory_carry h, and_iff_left hi]
      by_cases hnone : ∀ j o, r.Carries c s (.item j) o → r.renamed .item j = i →
          Facet.placement.get o = none
      · rw [recordedPlacement_of_not_carries h hnone, Catalog.initialPlacement_eq_carried]
        exact hr.unplaced i hi hnone
      · simp only [not_forall] at hnone
        obtain ⟨j, o, ho, rfl, hsome⟩ := hnone
        obtain ⟨p, hp⟩ := Option.ne_none_iff_exists'.1 hsome
        rw [recordedPlacement_of_carries h ho hp, renamePlacement_eq_carried]
        exact hr.placed j o ho p hp

end MigrationRule

/-! ### Faithful rules -/

theorem Catalog.Accepted.targets_initialPlacement {c : Catalog} (hc : c.Accepted) (i : EntityId) :
    ∀ k ∈ (c.initialPlacement i).targets, c.contains k = true := by
  unfold initialPlacement
  split
  · simp [Placement.targets]
  cases hd : c.items.get? i with
  | none => simp [Placement.targets]
  | some d =>
    have hcheck := hc.passes.items d (Table.mem_of_get? hd)
    simp only [checkItem, List.append_eq_nil_iff] at hcheck
    obtain ⟨⟨hlocation, hholder⟩, -⟩ := hcheck
    cases hl : d.location with
    | some l =>
      have hl' : c.contains (.location l) = true :=
        contains_of_checkKey? hlocation (congrArg (Option.map _) hl)
      simpa [hl, Placement.targets] using hl'
    | none =>
      cases hh : d.holder with
      | some p =>
        have hp : c.contains (.character p) = true :=
          contains_of_checkKey? hholder (congrArg (Option.map _) hh)
        simpa [hl, hh, Placement.targets] using hp
      | none => simp [hl, hh, Placement.targets]

theorem Catalog.Accepted.standing_declared {c : Catalog} (hc : c.Accepted) {p l : EntityId}
    (h : (c.characters.get? p).bind (·.location) = some l) : c.contains (.location l) = true := by
  obtain ⟨d, hd, hl⟩ := Option.bind_eq_some_iff.1 h
  exact contains_of_checkKey? (hc.passes.characters d (Table.mem_of_get? hd))
    (congrArg (Option.map _) hl)

theorem Table.exists_of_contains {α : Type} [Definition α] {t : Table α} {id : EntityId}
    (h : t.contains id = true) : ∃ d ∈ t.toList, Definition.id d = id := by
  obtain ⟨d, hd⟩ := Table.contains_iff_exists.1 h
  exact ⟨d, Table.mem_of_get? hd, Table.id_of_get? hd⟩

theorem State.Sparse.overridable {c : Catalog} {s : State} (hs : s.Sparse c) {key : EntityKey}
    {o : Override} (ho : s.overrides.get? key = some o) : key ∈ c.overridable := by
  have hkind : key.kind.overridable = true := by
    rw [← hs.kinds key o ho]
    cases o <;> rfl
  exact Catalog.mem_overridable.2 ⟨hkind, hs.declared key o ho⟩

namespace MigrationRule

/-- The rule keeps the entities of the old catalog apart and its places and people declared, and
what it makes of an entity is authored in the new catalog as the entity was. -/
structure Faithful (r : MigrationRule) (c c' : Catalog) : Prop where
  apart : ∀ k ∈ c.overridable, ∀ l ∈ c.overridable, r.renamedKey k = r.renamedKey l → k = l
  locations : ∀ d ∈ c.locations.toList, c'.contains (.location (r.renamed .location d.id)) = true
  characters : ∀ d ∈ c.characters.toList,
    c'.contains (.character (r.renamed .character d.id)) = true
  /-- Whatever the new catalog carries at the start was an item of the old one. -/
  carried : ∀ i ∈ c'.start.inventory, ∃ d ∈ c.items.toList, r.renamed .item d.id = i
  placement : ∀ d ∈ c.items.toList, c'.contains (.item (r.renamed .item d.id)) = true →
    c'.initialPlacement (r.renamed .item d.id) = r.renamePlacement (c.initialPlacement d.id)
  standing : ∀ d ∈ c.characters.toList,
    (c'.characters.get? (r.renamed .character d.id)).bind (·.location) =
      d.location.map (r.renamed .location)
  counter : ∀ d ∈ c.characters.toList, ∀ n,
    c'.authoredCounter (r.renamed .character d.id) n = c.authoredCounter d.id n
  exits : ∀ d ∈ c.exits.toList, ∀ e ∈ c'.exits.get? (r.renamed .exit d.id),
    e.locked = d.locked ∧ e.hidden = d.hidden
  text : ∀ key ∈ c.overridable, c'.contains (r.renamedKey key) = true →
    c'.authoredDescription? (r.renamedKey key) = c.authoredDescription? key

namespace Faithful

variable {r : MigrationRule} {c c' : Catalog} {s : State}

theorem renamed_injective (hr : r.Faithful c c') {kind : EntityKind}
    (hkind : kind.overridable = true) {i j : EntityId} (hi : c.contains ⟨kind, i⟩ = true)
    (hj : c.contains ⟨kind, j⟩ = true) (h : r.renamed kind i = r.renamed kind j) : i = j := by
  have hsame := hr.apart _ (Catalog.mem_overridable.2 ⟨hkind, hi⟩) _
    (Catalog.mem_overridable.2 ⟨hkind, hj⟩) (congrArg (EntityKey.mk kind) h)
  exact congrArg EntityKey.id hsame

theorem renamePlacement_injective (hr : r.Faithful c c') {p q : Placement}
    (hp : ∀ k ∈ p.targets, c.contains k = true) (hq : ∀ k ∈ q.targets, c.contains k = true)
    (h : r.renamePlacement p = r.renamePlacement q) : p = q := by
  cases p <;> cases q <;> simp [renamePlacement] at h ⊢
  · exact hr.renamed_injective rfl (hp _ (.head _)) (hq _ (.head _)) h
  · exact hr.renamed_injective rfl (hp _ (.head _)) (hq _ (.head _)) h

theorem departs (hr : r.Faithful c c') (hc : c.Accepted) {key : EntityKey} {o : Override}
    (hkind : o.kind = key.kind) (hkey : c.contains key = true)
    (htargets : ∀ k ∈ o.targets, c.contains k = true) (ho : o.Departs c key)
    (hkey' : c'.contains (r.renamedKey key) = true) :
    (r.renameOverride o).Departs c' (r.renamedKey key) := by
  obtain ⟨kind, id⟩ := key
  obtain rfl : o.kind = kind := hkind
  have htext : ∀ t ∈ Facet.description.get o,
      c'.authoredDescription? (r.renamedKey ⟨o.kind, id⟩) ≠ some t := by
    intro t ht
    rw [hr.text _ (Catalog.mem_overridable.2 ⟨by cases o <;> rfl, hkey⟩) hkey']
    exact ho.text t ht
  cases o with
  | location d => exact ⟨nofun, nofun, nofun, nofun, htext⟩
  | item p d =>
    refine ⟨?_, nofun, nofun, nofun, htext⟩
    intro p' hp'
    obtain ⟨q, rfl, rfl⟩ := Option.map_eq_some_iff.1 hp'
    obtain ⟨e, he, rfl⟩ := Table.exists_of_contains hkey
    -- Places that differ get different names, so the new one is not the authored one either.
    have hq : ∀ k ∈ q.targets, c.contains k = true := by
      cases q <;> exact htargets
    show c'.initialPlacement (r.renamed .item e.id) ≠ _
    rw [hr.placement e he hkey']
    intro hsame
    exact ho.placement q rfl
      (hr.renamePlacement_injective (hc.targets_initialPlacement e.id) hq hsame)
  | character l d =>
    refine ⟨nofun, ?_, nofun, nofun, htext⟩
    intro l' hl'
    obtain ⟨m, rfl, rfl⟩ := Option.map_eq_some_iff.1 hl'
    obtain ⟨e, he, rfl⟩ := Table.exists_of_contains hkey
    have hget : c.characters.get? e.id = some e := Table.get?_eq_some_iff.2 ⟨he, rfl⟩
    have hauthored : (c.characters.get? e.id).bind (·.location) = e.location := by
      rw [hget]
      rfl
    show (c'.characters.get? (r.renamed .character e.id)).bind (·.location) ≠ _
    rw [hr.standing e he, ← hauthored]
    intro hsame
    obtain ⟨n, hn, hnm⟩ := Option.map_eq_some_iff.1 hsame
    rw [hr.renamed_injective rfl (hc.standing_declared hn) (htargets _ (.head _)) hnm] at hn
    exact ho.location m rfl hn
  | exit k x d =>
    obtain ⟨e, he, rfl⟩ := Table.exists_of_contains hkey
    obtain ⟨e', he'⟩ := Table.contains_iff_exists.1 hkey'
    obtain ⟨hlocked, hhidden⟩ := hr.exits e he e' he'
    have hget : c.exits.get? e.id = some e := Table.get?_eq_some_iff.2 ⟨he, rfl⟩
    have hget' : c'.exits.get? (r.renamed .exit e.id) = some e' := he'
    have hlocked : (c'.exits.get? (r.renamed .exit e.id)).any (·.locked) =
        (c.exits.get? e.id).any (·.locked) := by
      rw [hget, hget', Option.any_some, Option.any_some, hlocked]
    have hhidden : (c'.exits.get? (r.renamed .exit e.id)).any (·.hidden) =
        (c.exits.get? e.id).any (·.hidden) := by
      rw [hget, hget', Option.any_some, Option.any_some, hhidden]
    exact ⟨nofun, nofun, fun b hb hsame => ho.locked b hb (hlocked.symm.trans hsame),
      fun b hb hsame => ho.hidden b hb (hhidden.symm.trans hsame), htext⟩

theorem stands (hr : r.Faithful c c') (hs : s.Sparse c) {key : EntityKey}
    (hkey : key ∈ c.overridable) : s.overrides.Stands r.renamedKey key := by
  intro key' hkey' hsame
  obtain ⟨e, he, rfl⟩ := List.mem_map.1 hkey'
  have he := hs.overridable (SortedMap.get?_eq_some_iff.2 he)
  rw [hr.apart _ he _ hkey hsame, Std.ReflOrd.compare_self]
  nofun

theorem carries (hr : r.Faithful c c') (hs : s.Sparse c) (hdeclared : s.Declared c) {i : EntityId}
    {o : Override} (ho : s.overrides.get? (.item i) = some o)
    (hi : c'.contains (.item (r.renamed .item i)) = true) : r.Carries c' s (.item i) o := by
  obtain ⟨hkey, htargets⟩ := hdeclared.overrides _ o ho
  refine ⟨ho, hr.stands hs (hs.overridable ho), hi, fun k hk => ?_⟩
  obtain ⟨p, d, rfl⟩ := Override.eq_item (hs.kinds _ o ho)
  cases p with
  | none => cases hk
  | some p =>
    cases p with
    | location l =>
      obtain ⟨d, hd, rfl⟩ := Table.exists_of_contains (htargets (.location l) (.head _))
      rw [List.mem_singleton.1 hk]
      exact hr.locations d hd
    | holder p =>
      obtain ⟨d, hd, rfl⟩ := Table.exists_of_contains (htargets (.character p) (.head _))
      rw [List.mem_singleton.1 hk]
      exact hr.characters d hd
    | _ => cases hk

/-- An item that no override places is where it was authored to be. -/
theorem mem_inventory_of_unplaced (htally : s.Tallies c) {i : EntityId}
    (hnone : ∀ o, s.overrides.get? (.item i) = some o → Facet.placement.get o = none) :
    i ∈ s.inventory ↔ c.initialPlacement i = .carried := by
  have hread : s.read .placement (.item i) = none := by
    rw [← State.get?_bind]
    exact Option.bind_eq_none_iff.2 hnone
  have hrecorded : (View.mk c s).recordedPlacement i = c.initialPlacement i := by
    rw [View.recordedPlacement_eq, hread]
    rfl
  rw [← hrecorded, ← htally i]
  simp [State.hasItem]

/-- A faithful rule keeps every state in order that turns lead to. -/
theorem keepsOrder (hr : r.Faithful c c') (hc : c.Accepted) (hstart : c.start.location ≠ "")
    (hdistinct : c.start.inventory.Nodup) (hs : Reachable c s) : r.KeepsOrder c' s := by
  have hsparse := State.Sparse.reachable hs
  have hdeclared := State.Declared.reachable hc hstart hs
  have htally := State.Tallies.reachable hs
  have horder := State.Orderly.reachable hdistinct hs
  have hmem : ∀ i, c.contains (.item i) = true →
      (r.renamed .item i ∈ s.inventory.map (r.renamed .item) ↔ i ∈ s.inventory) := by
    refine fun i hi => ⟨fun h => ?_, List.mem_map_of_mem⟩
    obtain ⟨j, hj, hsame⟩ := List.mem_map.1 h
    rwa [← hr.renamed_injective rfl (hdeclared.inventory j hj) hi hsame]
  refine ⟨fun key o ho => ?_, fun p own hown n x hx => ?_, ?_, fun i o ho p hp => ?_,
    fun i hi hnone => ?_⟩
  · obtain ⟨hkey, htargets⟩ := hdeclared.overrides key o ho.held
    exact hr.departs hc (hsparse.kinds key o ho.held) hkey htargets
      (hsparse.departs key o ho.held) ho.declared
  · obtain ⟨d, hd, rfl⟩ := Table.exists_of_contains (hdeclared.counters p own hown.held)
    have hdeparts := hsparse.counters d.id own n x hown.held hx
    rwa [← hr.counter d hd n] at hdeparts
  · refine List.Nodup.filter _ ((List.nodup_map_iff_inj_on horder.distinct).2 ?_)
    exact fun i hi j hj =>
      hr.renamed_injective rfl (hdeclared.inventory i hi) (hdeclared.inventory j hj)
  · have hi := (hdeclared.overrides _ o ho.held).1
    rw [hmem i hi, horder.carried i hi, View.recordedPlacement_eq, ← State.get?_bind, ho.held,
      Option.bind_some, Option.mem_def.1 hp]
    rfl
  · -- No override places what becomes the item, since it would have been carried over.
    have hauthored : ∀ d ∈ c.items.toList, r.renamed .item d.id = i →
        (d.id ∈ s.inventory ↔ i ∈ c'.start.inventory) := by
      rintro d hd rfl
      rw [mem_inventory_of_unplaced htally fun o ho =>
          hnone d.id o (hr.carries hsparse hdeclared ho hi) rfl,
        ← Catalog.initialPlacement_eq_carried, hr.placement d hd hi, renamePlacement_eq_carried]
    constructor
    · intro h
      obtain ⟨j, hj, hji⟩ := List.mem_map.1 h
      obtain ⟨d, hd, rfl⟩ := Table.exists_of_contains (hdeclared.inventory j hj)
      exact (hauthored d hd hji).1 hj
    · intro h
      obtain ⟨d, hd, rfl⟩ := hr.carried i h
      exact List.mem_map_of_mem ((hauthored d hd rfl).2 h)

end Faithful

end MigrationRule

/-- A save of another version is restored to a state in order exactly if its rule keeps the order of
the saved state, as a faithful rule does of every state that turns lead to in a world that names its
start and carries nothing twice there. -/
theorem Save.orderly_restored {c c' : Catalog} {save : Save} {r : MigrationRule} {t : State}
    (hversion : save.catalogVersion = c.version) (hother : c.version ≠ c'.version)
    (hr : c'.migrationFrom? c.version = some r) (ht : save.restore c' = .ok t) :
    (t.Orderly c' ↔ r.KeepsOrder c' save.state) ∧
      (c.Accepted → Reachable c save.state → c.start.location ≠ "" → c.start.inventory.Nodup →
        r.Faithful c c' → t.Orderly c') := by
  obtain ⟨-, hdeclared, hcame⟩ := restore_eq_ok_iff.1 ht
  rw [hversion] at hcame
  obtain ⟨hsame, -⟩ | ⟨-, r', hr', rfl, -⟩ := hcame
  · exact absurd hsame hother
  · obtain rfl := Option.some.inj (hr.symm.trans hr')
    have hiff := MigrationRule.orderly_carry_iff hdeclared
    exact ⟨hiff, fun hc hs hstart hdistinct hfaithful =>
      hiff.2 (hfaithful.keepsOrder hc hstart hdistinct hs)⟩

def lampTaken : State where
  turn := 2
  location := "barn"
  inventory := ["map", "lamp", "torch"]
  flags := .empty
  counters := .ofList [("cat", .ofList [("mood", 5)])]
  overrides := .ofList [(.item "lamp", .item (some .carried) none),
    (.item "torch", .item (some .carried) none)]
  act := "day"
  reachedActs := ["day"]
  completedSpokes := .empty
  firedBeats := ["purr"]
  latchedBeats := .empty
  usedInteractions := .empty
  victory := none

theorem reachable_lampTaken : Reachable barn lampTaken := by
  have hplayed : ((Session.start .zero barn {}).turns
      [({}, "take lamp"), ({}, "take torch")]).state = lampTaken := by decide +kernel
  rw [← hplayed]
  exact Session.reachable_turns (g := .start .zero barn {}) .refl _

theorem barn_accepted : barn.Accepted :=
  ⟨barnDoc, Catalog.ofDocument_eq_ok_iff.2 ⟨by decide, rfl⟩⟩

theorem rebuilding_faithful : rebuilding.Faithful barn rebuiltBarn := by
  have hcounter : ∀ d ∈ barn.characters.toList, ∀ n,
      rebuiltBarn.authoredCounter (rebuilding.renamed .character d.id) n =
        barn.authoredCounter d.id n := by
    intro d hd n
    obtain rfl := List.mem_singleton.1 hd
    rfl
  exact ⟨by decide, by decide, by decide, by decide, by decide, by decide, hcounter, by decide,
    by decide⟩

/-- What was taken in the barn is carried in the rebuilt one, and all is in order there. -/
theorem lamp_carried_over :
    let save := Save.capture .zero .epoch barn lampTaken
    let t := rebuilding.carry rebuiltBarn lampTaken
    barn.Accepted ∧ rebuiltBarn.Accepted ∧ Reachable barn save.state ∧
      save.catalogVersion = barn.version ∧ barn.version ≠ rebuiltBarn.version ∧
      rebuiltBarn.migrationFrom? barn.version = some rebuilding ∧ barn.start.location ≠ "" ∧
      barn.start.inventory.Nodup ∧ rebuilding.Faithful barn rebuiltBarn ∧
      save.restore rebuiltBarn = .ok t ∧ t.inventory = ["map", "lantern", "torch"] ∧
      rebuilding.KeepsOrder rebuiltBarn save.state ∧ t.Orderly rebuiltBarn := by
  intro save t
  have haccepted : rebuiltBarn.Accepted :=
    ⟨rebuiltBarnDoc, Catalog.ofDocument_eq_ok_iff.2 ⟨by decide, rfl⟩⟩
  have hs : Reachable barn save.state := reachable_lampTaken
  have hother : barn.version ≠ rebuiltBarn.version := by decide
  have hrule : rebuiltBarn.migrationFrom? barn.version = some rebuilding := by decide
  have hstart : barn.start.location ≠ "" := by decide
  have hdistinct : barn.start.inventory.Nodup := by decide
  have hrestored : save.restore rebuiltBarn = .ok t := by decide +kernel
  have hinventory : t.inventory = ["map", "lantern", "torch"] := by decide +kernel
  obtain ⟨hiff, hfaithful⟩ := Save.orderly_restored rfl hother hrule hrestored
  have horder : t.Orderly rebuiltBarn :=
    hfaithful barn_accepted hs hstart hdistinct rebuilding_faithful
  exact ⟨barn_accepted, haccepted, hs, rfl, hother, hrule, hstart, hdistinct,
    rebuilding_faithful, hrestored, hinventory, hiff.1 horder, horder⟩

/-- How the furnished barn takes saves of the barn over: its lamp and its torch are one light. -/
def furnishing : MigrationRule where
  version := "1"
  rename := { items := .ofList [("lamp", "light"), ("torch", "light")] }

/-- The barn furnished anew, with a light to carry from the start, the map in the loft and a cat
that is content. -/
def furnishedBarnDoc : WorldDocument where
  world := some { title := "Barn", version := "2" }
  start := some { location := "barn", inventory := ["light"] }
  locations := [{ id := "barn", name := "Barn" }, { id := "loft", name := "Loft" }]
  items := [{ id := "light", name := "light" },
    { id := "map", name := "map", location := some "loft" }]
  characters :=
    [{ id := "cat", name := "Cat", location := some "barn", counters := .ofList [("mood", 5)] }]
  beats := [{ id := "purr", effects := [.setCounter "cat" "mood" 5] }]
  acts := [{ id := "day", locations := ["barn", "loft"] }]
  migrations := [furnishing]

def furnishedBarn : Catalog := .draft furnishedBarnDoc

/-- In the furnished barn what was taken is one light carried twice, which is on record although the
player has it from the start, as the cat has its mood; and the map is carried and on record as lying
in the loft. -/
theorem lamp_and_torch_become_one :
    let save := Save.capture .zero .epoch barn lampTaken
    ∃ t, barn.Accepted ∧ furnishedBarn.Accepted ∧ barn.version ≠ furnishedBarn.version ∧
      Reachable barn save.state ∧ save.restore furnishedBarn = .ok t ∧
      t.inventory = ["map", "light", "light"] ∧
      (t.overrides.get? (.item "light")).bind Facet.placement.get =
        some (furnishedBarn.initialPlacement "light") ∧
      (t.counters.get? "cat").bind (·.get? "mood") =
        some (furnishedBarn.authoredCounter "cat" "mood") ∧
      (View.mk furnishedBarn t).recordedPlacement "map" = .location "loft" ∧
      ¬t.Orderly furnishedBarn := by
  intro save
  have haccepted : furnishedBarn.Accepted :=
    ⟨furnishedBarnDoc, Catalog.ofDocument_eq_ok_iff.2 ⟨by decide, rfl⟩⟩
  have hs : Reachable barn save.state := reachable_lampTaken
  have hrestored : save.restore furnishedBarn =
      .ok (furnishing.carry furnishedBarn lampTaken) := by decide +kernel
  have hinventory : (furnishing.carry furnishedBarn lampTaken).inventory =
      ["map", "light", "light"] := by decide +kernel
  refine ⟨_, barn_accepted, haccepted, by decide, hs, hrestored, hinventory, by decide +kernel,
    by decide +kernel, by decide +kernel, fun h => ?_⟩
  have hdistinct := h.distinct
  rw [hinventory] at hdistinct
  exact absurd hdistinct (by decide)

end Storyworld
