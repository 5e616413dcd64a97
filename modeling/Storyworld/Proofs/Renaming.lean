import Storyworld.Proofs.Carryover

/-!
# Renaming

A rule that drops nothing and keeps the names of a state apart renames everything that the state
refers to, each thing once and all at the same time, and loses nothing of it (`State.Renamed`).
There is one such state, so any rule that takes the new names back gives the old state back
(`MigrationRule.renameState_of_undoes`). The rule with its tables turned around is one where nothing
else is given the new name of what there is in the state (`MigrationRule.Reversible.undoes`).
-/

namespace Storyworld

namespace SortedMap

variable {κ κ' α β : Type} [Ord κ] [Std.TransOrd κ] [Std.LawfulEqOrd κ] [Ord κ'] [Std.TransOrd κ']
  [Std.LawfulEqOrd κ']

omit [Std.TransOrd κ] in
theorem nodup_toList (m : SortedMap κ α) : m.toList.Nodup := List.Nodup.of_map _ m.nodup_keys

theorem eq_of_perm {m₁ m₂ : SortedMap κ α} (h : m₁.toList.Perm m₂.toList) : m₁ = m₂ :=
  ext_get? fun k => Option.ext fun v => by
    rw [get?_eq_some_iff, get?_eq_some_iff, h.mem_iff]

/-- Where no two keys become one, renaming the keys of a map loses no entry. -/
theorem toList_ofList_map_perm [DecidableEq κ'] {m : SortedMap κ α} {f : κ → κ'} {g : α → β}
    (h : ∀ k ∈ m.keys, ∀ l ∈ m.keys, f k = f l → k = l) :
    (ofList (m.toList.map fun e => (f e.1, g e.2))).toList.Perm
      (m.toList.map fun e => (f e.1, g e.2)) := by
  have hkeys : ∀ e ∈ m.toList, e.1 ∈ m.keys := fun e => List.mem_map_of_mem
  have hnodup : (m.toList.map fun e => (f e.1, g e.2)).Nodup := by
    refine (List.nodup_map_iff_inj_on m.nodup_toList).2 fun e he e' he' hsame => ?_
    have hkey : e.1 = e'.1 := h _ (hkeys e he) _ (hkeys e' he') (congrArg Prod.fst hsame)
    have hvalue : some e.2 = some e'.2 := by
      rw [← get?_eq_some_iff.2 he, ← get?_eq_some_iff.2 he', hkey]
    exact Prod.ext hkey (Option.some.inj hvalue)
  refine (List.perm_ext_iff_of_nodup (nodup_toList _) hnodup).2 fun ⟨k', b⟩ => ?_
  rw [← get?_eq_some_iff, get?_ofList_map]
  simp only [List.mem_map, Prod.exists, Prod.mk.injEq, ← get?_eq_some_iff]
  refine exists₂_congr fun k a => and_congr_right fun ha => and_iff_right fun k₀ hk₀ hsame => ?_
  rw [h k₀ hk₀ k (hkeys (k, a) (get?_eq_some_iff.1 ha)) hsame, Std.ReflOrd.compare_self]
  decide

variable [DecidableEq κ]

theorem get?_ofList_of_mem {es : List (κ × α)} {k : κ} {v : α} (hmem : (k, v) ∈ es)
    (hall : ∀ e ∈ es, e.1 = k → e.2 = v) : (ofList es).get? k = some v := by
  induction es using List.reverseRecOn with
  | nil => cases hmem
  | append_singleton es e ih =>
    rw [ofList_concat, get?_insert]
    split
    · rename_i hk
      rw [hall e (by simp) hk.symm]
    · rename_i hk
      rcases List.mem_append.1 hmem with hmem | hmem
      · exact ih hmem fun e' he' => hall e' (by simp [he'])
      · rw [← List.mem_singleton.1 hmem] at hk
        exact absurd rfl hk

theorem get?_ofList_of_not_mem {es : List (κ × α)} {k : κ} (h : ∀ e ∈ es, e.1 ≠ k) :
    (ofList es).get? k = none := by
  induction es using List.reverseRecOn with
  | nil => rfl
  | append_singleton es e ih =>
    rw [ofList_concat, get?_insert, if_neg fun hk => h e (by simp) hk.symm]
    exact ih fun e' he' => h e' (by simp [he'])

end SortedMap

namespace SortedSet

variable {s t : SortedSet EntityId}

theorem nodup_toList (s : SortedSet EntityId) : s.toList.Nodup := s.members.nodup_keys

theorem eq_of_perm (h : s.toList.Perm t.toList) : s = t :=
  ext_mem fun k => by rw [← mem_toList, ← mem_toList, h.mem_iff]

theorem toList_ofList_perm {ks : List EntityId} (h : ks.Nodup) : (ofList ks).toList.Perm ks :=
  (List.perm_ext_iff_of_nodup (nodup_toList _) h).2 fun k => by rw [mem_toList, mem_ofList]

end SortedSet

namespace MigrationRule

/-- The rule keeps apart what is apart in the state. -/
structure Distinguishes (r : MigrationRule) (s : State) : Prop where
  entities : ∀ k ∈ s.references, ∀ l ∈ s.references, r.renamedKey k = r.renamedKey l → k = l
  flags : ∀ f ∈ s.flags.keys, ∀ g ∈ s.flags.keys, r.renamedFlag f = r.renamedFlag g → f = g

/-- The rule takes what another makes of the names in the state back to them. -/
structure Undoes (q r : MigrationRule) (s : State) : Prop where
  keepsFlags : q.dropFlags = []
  entities : ∀ k ∈ s.references, q.renamedKey (r.renamedKey k) = k
  flags : ∀ f ∈ s.flags.keys, q.renamedFlag (r.renamedFlag f) = f

end MigrationRule

def RenameTable.ofKinds (entities : EntityKind → SortedMap String String)
    (flags : SortedMap String String) : RenameTable where
  locations := entities .location
  items := entities .item
  characters := entities .character
  exits := entities .exit
  interactions := entities .interaction
  beats := entities .beat
  spokes := entities .spoke
  acts := entities .act
  flags

theorem RenameTable.ofKind_ofKinds {entities : EntityKind → SortedMap String String}
    {flags : SortedMap String String} {kind : EntityKind} (h : kind ≠ .victory) :
    (RenameTable.ofKinds entities flags).ofKind kind = entities kind := by
  cases kind <;> first | rfl | exact absurd rfl h

namespace MigrationRule

/-- The rule that gives all that a state refers to its old name back. -/
def undoing (r : MigrationRule) (s : State) : MigrationRule where
  version := r.version
  rename := .ofKinds
    (fun kind => .ofList ((s.references.filter (·.kind == kind)).map fun k =>
      (r.renamed kind k.id, k.id)))
    (.ofList (s.flags.keys.map fun f => (r.renamedFlag f, f)))

/-- The rule whose tables are turned around. -/
def reversed (r : MigrationRule) : MigrationRule where
  version := r.version
  rename := .ofKinds
    (fun kind => .ofList ((r.rename.ofKind kind).toList.map Prod.swap))
    (.ofList (r.rename.flags.toList.map Prod.swap))

theorem ofKind_undoing {r : MigrationRule} {s : State} {kind : EntityKind} (h : kind ≠ .victory) :
    (r.undoing s).rename.ofKind kind = .ofList ((s.references.filter (·.kind == kind)).map fun k =>
      (r.renamed kind k.id, k.id)) :=
  RenameTable.ofKind_ofKinds h

theorem ofKind_reversed {r : MigrationRule} {kind : EntityKind} (h : kind ≠ .victory) :
    r.reversed.rename.ofKind kind = .ofList ((r.rename.ofKind kind).toList.map Prod.swap) :=
  RenameTable.ofKind_ofKinds h

/-- Nothing else is given the new name of what there is in the state. -/
structure Reversible (r : MigrationRule) (s : State) : Prop where
  entities : ∀ k ∈ s.references, ∀ e ∈ (r.rename.ofKind k.kind).toList,
    e.2 = r.renamed k.kind k.id → e.1 = k.id
  flags : ∀ f ∈ s.flags.keys, ∀ e ∈ r.rename.flags.toList, e.2 = r.renamedFlag f → e.1 = f

end MigrationRule

/-- The state is another one under the names that a rule gives: all that the other refers to and
holds is there under its new name, in its place where there is an order, and nothing else. -/
structure State.Renamed (r : MigrationRule) (s t : State) : Prop where
  turn : t.turn = s.turn
  location : t.location = r.renamed .location s.location
  inventory : t.inventory = s.inventory.map (r.renamed .item)
  flags : t.flags.toList.Perm (s.flags.toList.map fun e => (r.renamedFlag e.1, e.2))
  counters : t.counters.toList.Perm (s.counters.toList.map fun e => (r.renamed .character e.1, e.2))
  overrides : t.overrides.toList.Perm
    (s.overrides.toList.map fun e => (r.renamedKey e.1, r.renameOverride e.2))
  act : t.act = r.renamed .act s.act
  reachedActs : t.reachedActs = s.reachedActs.map (r.renamed .act)
  completedSpokes : t.completedSpokes.toList.Perm (s.completedSpokes.toList.map (r.renamed .spoke))
  firedBeats : t.firedBeats = s.firedBeats.map (r.renamed .beat)
  latchedBeats : t.latchedBeats.toList.Perm (s.latchedBeats.toList.map (r.renamed .beat))
  usedInteractions : t.usedInteractions.toList.Perm
    (s.usedInteractions.toList.map (r.renamed .interaction))
  victory : t.victory = s.victory

variable {r q : MigrationRule} {s t u : State}

namespace State

/-- It holds of each part of what a state refers to. -/
structure Refers (s : State) (P : EntityKey → Prop) : Prop where
  location : P (.location s.location)
  inventory : ∀ i ∈ s.inventory, P (.item i)
  counters : ∀ p ∈ s.counters.keys, P (.character p)
  keys : ∀ key ∈ s.overrides.keys, P key
  targets : ∀ e ∈ s.overrides.toList, ∀ k ∈ e.2.targets, P k
  act : P (.act s.act)
  reached : ∀ a ∈ s.reachedActs, P (.act a)
  fired : ∀ b ∈ s.firedBeats, P (.beat b)
  latched : ∀ b ∈ s.latchedBeats.toList, P (.beat b)
  spokes : ∀ x ∈ s.completedSpokes.toList, P (.spoke x)
  used : ∀ i ∈ s.usedInteractions.toList, P (.interaction i)

theorem refers (s : State) : s.Refers (· ∈ s.references) := by
  have hoverride : ∀ e ∈ s.overrides.toList, ∀ k ∈ e.1 :: e.2.targets, k ∈ s.references := by
    intro e he k hk
    have hmem : k ∈ s.overrides.toList.flatMap fun e => e.1 :: e.2.targets :=
      List.mem_flatMap.2 ⟨e, he, hk⟩
    simp only [references, List.mem_cons, List.mem_append]
    tauto
  refine ⟨?_, ?_, ?_, fun k hk => ?_, fun e he k hk => hoverride e he k (.tail _ hk), ?_, ?_, ?_,
    ?_, ?_, ?_⟩
  case refine_4 =>
    obtain ⟨e, he, rfl⟩ := List.mem_map.1 hk
    exact hoverride e he _ (.head _)
  all_goals simp +contextual [references]

end State

namespace MigrationRule

/-! ### What is renamed -/

theorem toList_renameSet_perm {kind : EntityKind} {ids : SortedSet EntityId}
    (h : ∀ i ∈ ids.toList, ∀ j ∈ ids.toList, r.renamed kind i = r.renamed kind j → i = j) :
    (r.renameSet kind ids).toList.Perm (ids.toList.map (r.renamed kind)) :=
  SortedSet.toList_ofList_perm ((List.nodup_map_iff_inj_on ids.nodup_toList).2 h)

theorem targets_renameOverride (o : Override) :
    (r.renameOverride o).targets = o.targets.map r.renamedKey := by
  cases o with
  | item p d => cases p with
    | none => rfl
    | some p => cases p <;> rfl
  | character l d => cases l <;> rfl
  | _ => rfl

theorem fieldCount_renameOverride (o : Override) :
    (r.renameOverride o).fieldCount = o.fieldCount := by
  have hmap : ∀ {α β : Type} (f : α → β) (x : Option α),
      (x.map f).toList.length = x.toList.length := fun f x => by cases x <;> rfl
  cases o <;> simp [renameOverride, Override.fieldCount, hmap]

namespace Distinguishes

theorem ids (h : r.Distinguishes s) {kind : EntityKind} {i j : EntityId}
    (hi : ⟨kind, i⟩ ∈ s.references) (hj : ⟨kind, j⟩ ∈ s.references)
    (hsame : r.renamed kind i = r.renamed kind j) : i = j :=
  congrArg EntityKey.id (h.entities _ hi _ hj (congrArg (EntityKey.mk kind) hsame))

/-- A rule that keeps the names of a state apart renames the state. -/
theorem renamed (h : r.Distinguishes s) (hkeeps : r.dropFlags = []) :
    s.Renamed r (r.renameState s) where
  turn := rfl
  location := rfl
  inventory := rfl
  flags := by
    have hall : (s.flags.toList.filter fun e => !r.dropFlags.contains e.1) = s.flags.toList := by
      simp [hkeeps]
    have hflags : (r.renameState s).flags = .ofList (s.flags.toList.map fun e =>
        (r.renamedFlag e.1, id e.2)) := by
      unfold renameState
      dsimp only
      rw [hall]
      rfl
    rw [hflags]
    exact SortedMap.toList_ofList_map_perm h.flags
  counters := SortedMap.toList_ofList_map_perm (g := id) fun p hp p' hp' =>
    h.ids (s.refers.counters p hp) (s.refers.counters p' hp')
  overrides := SortedMap.toList_ofList_map_perm fun k hk l hl =>
    h.entities k (s.refers.keys k hk) l (s.refers.keys l hl)
  act := rfl
  reachedActs := rfl
  completedSpokes := toList_renameSet_perm fun x hx y hy =>
    h.ids (s.refers.spokes x hx) (s.refers.spokes y hy)
  firedBeats := rfl
  latchedBeats := toList_renameSet_perm fun x hx y hy =>
    h.ids (s.refers.latched x hx) (s.refers.latched y hy)
  usedInteractions := toList_renameSet_perm fun x hx y hy =>
    h.ids (s.refers.used x hx) (s.refers.used y hy)
  victory := rfl

end Distinguishes

namespace Undoes

theorem ids (h : q.Undoes r s) {kind : EntityKind} {i : EntityId} (hi : ⟨kind, i⟩ ∈ s.references) :
    q.renamed kind (r.renamed kind i) = i :=
  congrArg EntityKey.id (h.entities _ hi)

theorem renamePlacement (h : q.Undoes r s) {p : Placement} (hp : ∀ k ∈ p.targets, k ∈ s.references) :
    q.renamePlacement (r.renamePlacement p) = p := by
  cases p with
  | location l => exact congrArg Placement.location (h.ids (hp _ (.head _)))
  | holder c => exact congrArg Placement.holder (h.ids (hp _ (.head _)))
  | _ => rfl

theorem renameOverride (h : q.Undoes r s) {o : Override} (ho : ∀ k ∈ o.targets, k ∈ s.references) :
    q.renameOverride (r.renameOverride o) = o := by
  cases o with
  | item p d =>
    cases p with
    | none => rfl
    | some p =>
      have hp : ∀ k ∈ p.targets, k ∈ s.references := by cases p <;> exact ho
      exact congrArg (fun p => Override.item (some p) d) (h.renamePlacement hp)
  | character l d =>
    cases l with
    | none => rfl
    | some l => exact congrArg (fun l => Override.character (some l) d) (h.ids (ho _ (.head _)))
  | _ => rfl

end Undoes
end MigrationRule

namespace State.Renamed

/-- There is one state that is another one under new names. -/
theorem unique (ht : s.Renamed r t) (hu : s.Renamed r u) : t = u := by
  cases t
  cases u
  simp only [State.mk.injEq]
  exact ⟨ht.turn.trans hu.turn.symm, ht.location.trans hu.location.symm,
    ht.inventory.trans hu.inventory.symm, SortedMap.eq_of_perm (ht.flags.trans hu.flags.symm),
    SortedMap.eq_of_perm (ht.counters.trans hu.counters.symm),
    SortedMap.eq_of_perm (ht.overrides.trans hu.overrides.symm), ht.act.trans hu.act.symm,
    ht.reachedActs.trans hu.reachedActs.symm,
    SortedSet.eq_of_perm (ht.completedSpokes.trans hu.completedSpokes.symm),
    ht.firedBeats.trans hu.firedBeats.symm,
    SortedSet.eq_of_perm (ht.latchedBeats.trans hu.latchedBeats.symm),
    SortedSet.eq_of_perm (ht.usedInteractions.trans hu.usedInteractions.symm),
    ht.victory.trans hu.victory.symm⟩

theorem references (h : s.Renamed r t) : t.references.Perm (s.references.map r.renamedKey) := by
  have hids : ∀ kind {xs ys : List EntityId}, ys.Perm (xs.map (r.renamed kind)) →
      (ys.map (EntityKey.mk kind)).Perm ((xs.map (EntityKey.mk kind)).map r.renamedKey) := by
    intro kind xs ys hys
    have hkeys := hys.map (EntityKey.mk kind)
    rw [List.map_map] at hkeys ⊢
    exact hkeys
  have hcounters : t.counters.keys.Perm (s.counters.keys.map (r.renamed .character)) := by
    have hkeys := h.counters.map Prod.fst
    rw [List.map_map] at hkeys
    unfold SortedMap.keys
    rw [List.map_map]
    exact hkeys
  have hoverrides : (t.overrides.toList.flatMap fun e => e.1 :: e.2.targets).Perm
      ((s.overrides.toList.flatMap fun e => e.1 :: e.2.targets).map r.renamedKey) := by
    refine (h.overrides.flatMap_right _).trans (.of_eq ?_)
    rw [List.flatMap_map, List.map_flatMap]
    refine List.flatMap_congr fun e _ => ?_
    rw [MigrationRule.targets_renameOverride]
    rfl
  have hvictory : (t.victory.toList.map EntityKey.victory).Perm
      ((s.victory.toList.map EntityKey.victory).map r.renamedKey) := by
    rw [h.victory, List.map_map]
    rfl
  unfold State.references
  simp only [List.map_append, List.map_cons]
  rw [h.location, h.act]
  exact .append (.append (.append (.append (.append (.append (.append (.append
    (.cons _ (hids .item (.of_eq h.inventory))) (hids .character hcounters)) hoverrides)
    (.cons _ (hids .act (.of_eq h.reachedActs)))) (hids .beat (.of_eq h.firedBeats)))
    (hids .beat h.latchedBeats)) (hids .spoke h.completedSpokes))
    (hids .interaction h.usedInteractions)) hvictory

/-- No field of an override is lost. -/
theorem overriddenFields (h : s.Renamed r t) : t.overriddenFields = s.overriddenFields := by
  have hsum : ∀ u : State, u.overriddenFields =
      (u.overrides.toList.map fun e => e.2.fieldCount).sum := by
    intro u
    unfold State.overriddenFields SortedMap.values
    rw [List.foldr_map, List.sum, List.foldr_map]
  rw [hsum, hsum, (h.overrides.map _).sum_nat, List.map_map]
  refine congrArg List.sum (List.map_congr_left fun e _ => ?_)
  exact MigrationRule.fieldCount_renameOverride e.2

theorem undone (h : s.Renamed r t) (hq : q.Undoes r s) : t.Renamed q s := by
  have hback : ∀ {α β : Type} {f : α → β} {g : β → α} {xs : List α} {ys : List β},
      ys.Perm (xs.map f) → (∀ x ∈ xs, g (f x) = x) → xs.Perm (ys.map g) := by
    intro α β f g xs ys hys hgf
    refine ((hys.map g).trans (.of_eq ?_)).symm
    rw [List.map_map]
    exact (List.map_congr_left hgf).trans (List.map_id _)
  have hlist : ∀ {f g : EntityId → EntityId} {xs ys : List EntityId},
      ys = xs.map f → (∀ x ∈ xs, g (f x) = x) → xs = ys.map g := by
    rintro f g xs _ rfl hgf
    rw [List.map_map]
    exact ((List.map_congr_left hgf).trans (List.map_id _)).symm
  have hs := s.refers
  refine ⟨h.turn.symm, ?_, hlist h.inventory fun i hi => hq.ids (hs.inventory i hi),
    hback h.flags fun e he => ?_, hback h.counters fun e he => ?_, hback h.overrides fun e he => ?_,
    ?_, hlist h.reachedActs fun a ha => hq.ids (hs.reached a ha),
    hback h.completedSpokes fun x hx => hq.ids (hs.spokes x hx),
    hlist h.firedBeats fun b hb => hq.ids (hs.fired b hb),
    hback h.latchedBeats fun b hb => hq.ids (hs.latched b hb),
    hback h.usedInteractions fun i hi => hq.ids (hs.used i hi), h.victory.symm⟩
  · rw [h.location, hq.ids hs.location]
  · exact Prod.ext (hq.flags e.1 (List.mem_map_of_mem he)) rfl
  · exact Prod.ext (hq.ids (hs.counters e.1 (List.mem_map_of_mem he))) rfl
  · exact Prod.ext (hq.entities e.1 (hs.keys e.1 (List.mem_map_of_mem he)))
      (hq.renameOverride (hs.targets e he))
  · rw [h.act, hq.ids hs.act]

theorem distinguishes (h : s.Renamed r t) (hq : q.Undoes r s) : q.Distinguishes t := by
  have hkeys : ∀ k ∈ t.references, r.renamedKey (q.renamedKey k) = k := by
    intro k hk
    obtain ⟨k₀, hk₀, rfl⟩ := List.mem_map.1 (h.references.mem_iff.1 hk)
    rw [hq.entities k₀ hk₀]
  have hflags : ∀ f ∈ t.flags.keys, r.renamedFlag (q.renamedFlag f) = f := by
    intro f hf
    obtain ⟨e, he, rfl⟩ := List.mem_map.1 hf
    obtain ⟨e₀, he₀, rfl⟩ := List.mem_map.1 (h.flags.mem_iff.1 he)
    exact congrArg r.renamedFlag (hq.flags e₀.1 (List.mem_map_of_mem he₀))
  refine ⟨fun k hk l hl hsame => ?_, fun f hf g hg hsame => ?_⟩
  · rw [← hkeys k hk, hsame, hkeys l hl]
  · rw [← hflags f hf, hsame, hflags g hg]

end State.Renamed

theorem SortedMap.getD_ofList_swap {table : SortedMap String String} {name : String}
    (h : ∀ e ∈ table.toList, e.2 = (table.get? name).getD name → e.1 = name) :
    ((SortedMap.ofList (table.toList.map Prod.swap)).get? ((table.get? name).getD name)).getD
      ((table.get? name).getD name) = name := by
  have hall : ∀ e ∈ table.toList.map Prod.swap, e.1 = (table.get? name).getD name → e.2 = name := by
    intro e' he'
    obtain ⟨e, he, rfl⟩ := List.mem_map.1 he'
    exact h e he
  cases hname : table.get? name with
  | none =>
    rw [hname] at hall
    rw [SortedMap.get?_ofList_of_not_mem]
    · rfl
    · -- The name would be given to itself, but it is not renamed at all.
      intro e he hsame
      obtain ⟨e', he', rfl⟩ := List.mem_map.1 he
      have hself : (name, e'.2) ∈ table.toList := by rwa [← hall _ he hsame]
      rw [SortedMap.get?_eq_some_iff.2 hself] at hname
      cases hname
  | some new =>
    rw [hname] at hall
    have hmem : (new, name) ∈ table.toList.map Prod.swap :=
      List.mem_map_of_mem (f := Prod.swap) (SortedMap.get?_eq_some_iff.1 hname)
    rw [Option.getD_some, SortedMap.get?_ofList_of_mem hmem hall]
    rfl

namespace MigrationRule

/-- Whatever takes the new names back gives the old state back. -/
theorem renameState_of_undoes (hkeeps : r.dropFlags = []) (h : r.Distinguishes s)
    (hq : q.Undoes r s) : q.renameState (r.renameState s) = s :=
  have ht := h.renamed hkeeps
  ((ht.distinguishes hq).renamed hq.keepsFlags).unique (ht.undone hq)

theorem Distinguishes.undoing (h : r.Distinguishes s) : (r.undoing s).Undoes r s where
  keepsFlags := rfl
  entities := by
    rintro ⟨kind, i⟩ hi
    have hget : (SortedMap.ofList ((s.references.filter (·.kind == kind)).map fun k =>
        (r.renamed kind k.id, k.id))).get? (r.renamed kind i) = some i := by
      refine SortedMap.get?_ofList_of_mem (List.mem_map.2 ⟨⟨kind, i⟩, by simp [hi], rfl⟩) ?_
      intro e he hsame
      obtain ⟨⟨kind', j⟩, hkept, rfl⟩ := List.mem_map.1 he
      obtain ⟨hj, hkind⟩ := List.mem_filter.1 hkept
      obtain rfl : kind' = kind := by simpa using hkind
      exact h.ids hj hi hsame
    refine congrArg (EntityKey.mk kind) ?_
    obtain rfl | hkind := eq_or_ne kind .victory
    · rfl
    · have htable := hget
      rw [← ofKind_undoing hkind] at htable
      exact congrArg (Option.getD · _) htable
  flags := by
    intro f hf
    have hget : (SortedMap.ofList (s.flags.keys.map fun f => (r.renamedFlag f, f))).get?
        (r.renamedFlag f) = some f := by
      refine SortedMap.get?_ofList_of_mem (List.mem_map_of_mem hf) fun e he hsame => ?_
      obtain ⟨g, hg, rfl⟩ := List.mem_map.1 he
      exact h.flags g hg f hf hsame
    exact congrArg (Option.getD · _) hget

theorem Reversible.undoes (h : r.Reversible s) : r.reversed.Undoes r s where
  keepsFlags := rfl
  entities := by
    rintro ⟨kind, i⟩ hi
    have hback := SortedMap.getD_ofList_swap (h.entities _ hi)
    refine congrArg (EntityKey.mk kind) ?_
    obtain rfl | hkind := eq_or_ne kind .victory
    · rfl
    · rw [← ofKind_reversed hkind] at hback
      exact hback
  flags := fun f hf => SortedMap.getD_ofList_swap (h.flags f hf)

/-- A rule that drops no flag and keeps the names of a state apart renames it faithfully. All that
the state refers to is referred to by its new name, nothing is lost, and any rule that takes the
names back, of which there is one, gives the state back; the reversed rule is one where nothing else
was given the same names. -/
theorem renameState_faithful (hkeeps : r.dropFlags = []) (h : r.Distinguishes s) :
    let t := r.renameState s
    s.Renamed r t ∧ t.references.Perm (s.references.map r.renamedKey) ∧
      t.overriddenFields = s.overriddenFields ∧ (r.undoing s).Undoes r s ∧
      (∀ q : MigrationRule, q.Undoes r s → q.renameState t = s) ∧
      (r.Reversible s → r.reversed.Undoes r s) := by
  intro t
  have ht : s.Renamed r t := h.renamed hkeeps
  exact ⟨ht, ht.references, ht.overriddenFields, h.undoing,
    fun q hq => renameState_of_undoes hkeeps h hq, Reversible.undoes⟩

end MigrationRule

/-- A rule under which names change places or move up by one. -/
def shuffling : MigrationRule where
  version := "1"
  rename := {
    locations := .ofList [("cellar", "barn"), ("barn", "loft")]
    items := .ofList [("lamp", "torch"), ("torch", "lamp")]
    characters := .ofList [("cat", "dog"), ("dog", "fox")]
    exits := .ofList [("shaft", "ladder")]
    beats := .ofList [("howl", "purr"), ("purr", "howl")]
    spokes := .ofList [("west", "east")]
    acts := .ofList [("day", "night")]
    interactions := .ofList [("dig", "delve")]
    flags := .ofList [("dark", "dim")] }

/-- Under such a rule no lamp becomes a torch and a lamp again, and with the tables turned around
all is as it was. -/
theorem torn_state_shuffled :
    let s := tornSave.state
    let t : State := {
      turn := 9
      location := "barn"
      inventory := ["ghost", "torch"]
      flags := .ofList [("dim", .bool true)]
      counters := .ofList [("dog", .ofList [("mood", 5)]), ("fox", .ofList [("mood", 1)])]
      overrides := .ofList [(.item "lamp", .item (some (.location "barn")) none),
        (.item "torch", .item (some .carried) none), (.exit "ladder", .exit (some true) none none)]
      act := "night"
      reachedActs := ["night"]
      completedSpokes := .ofList ["east"]
      firedBeats := ["purr", "howl"]
      latchedBeats := .ofList ["purr"]
      usedInteractions := .ofList ["delve"]
      victory := some "peace" }
    shuffling.dropFlags = [] ∧ shuffling.Distinguishes s ∧ shuffling.renameState s = t ∧
      s.Renamed shuffling t ∧ shuffling.Reversible s ∧ shuffling.reversed.renameState t = s := by
  intro s t
  have hkeeps : shuffling.dropFlags = [] := rfl
  have hapart : shuffling.Distinguishes s := ⟨by decide, by decide⟩
  have hreversible : shuffling.Reversible s := ⟨by decide, by decide⟩
  have hrenamed : shuffling.renameState s = t := by decide +kernel
  obtain ⟨ht, -, -, -, hback, hreversed⟩ :=
    MigrationRule.renameState_faithful hkeeps hapart
  have hundone := hback _ (hreversed hreversible)
  rw [hrenamed] at ht hundone
  exact ⟨hkeeps, hapart, hrenamed, ht, hreversible, hundone⟩

/-- Turning the tables around is not enough where a name that is kept is also given anew. -/
example :
    let r : MigrationRule :=
      { version := "1", rename := { items := .ofList [("lantern", "lamp")] } }
    r.Distinguishes tornSave.state ∧
      (r.reversed.renameState (r.renameState tornSave.state)).inventory = ["ghost", "lantern"] :=
  ⟨⟨by decide, by decide⟩, by decide +kernel⟩

end Storyworld
