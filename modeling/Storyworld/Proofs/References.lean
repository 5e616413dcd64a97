import Storyworld.Migration
import Storyworld.Proofs.Accepted
import Storyworld.Proofs.Runs

/-!
# What states refer to

Everything that a state refers to is declared (`State.Declared`) exactly when nothing of it dangles.
Effects are applied only if what they name is declared, and the other changes of the store name
definitions, so declared references stay declared through every run; a world that names its start
begins with such a state.
-/

namespace Storyworld

def Placement.targets : Placement → List EntityKey
  | location l => [.location l]
  | holder p => [.character p]
  | _ => []

namespace Override

variable {o : Override} {key : EntityKey}

theorem targets_of_empty? {kind : EntityKind} (h : empty? kind = some o) : o.targets = [] := by
  cases kind <;> cases h <;> rfl

theorem mem_targets_withPlacement {p : Option Placement}
    (h : key ∈ (o.withPlacement p).targets) : key ∈ o.targets ∨ ∃ q ∈ p, key ∈ q.targets := by
  cases o with
  | item q d =>
    cases p with
    | none => cases h
    | some p => exact .inr ⟨p, rfl, by cases p <;> exact h⟩
  | _ => exact .inl h

theorem mem_targets_withLocation {l : Option EntityId} (h : key ∈ (o.withLocation l).targets) :
    key ∈ o.targets ∨ ∃ x ∈ l, key = .location x := by
  cases o with
  | character q d =>
    cases l with
    | none => cases h
    | some l => exact .inr ⟨l, rfl, List.mem_singleton.1 h⟩
  | _ => exact .inl h

theorem targets_withLocked (k : Option Bool) : (o.withLocked k).targets = o.targets := by
  cases o <;> rfl

theorem targets_withHidden (h : Option Bool) : (o.withHidden h).targets = o.targets := by
  cases o <;> rfl

theorem targets_withDescription (d : Option String) :
    (o.withDescription d).targets = o.targets := by
  cases o with
  | item p _ => cases p with
    | none => rfl
    | some p => cases p <;> rfl
  | character l _ => cases l <;> rfl
  | _ => rfl

end Override

namespace State

/-- Everything that the state refers to is declared. -/
structure Declared (c : Catalog) (s : State) : Prop where
  location : c.contains (.location s.location) = true
  inventory : ∀ i ∈ s.inventory, c.contains (.item i) = true
  counters : ∀ p own, s.counters.get? p = some own → c.contains (.character p) = true
  overrides : ∀ key o, s.overrides.get? key = some o →
    c.contains key = true ∧ ∀ k ∈ o.targets, c.contains k = true
  act : c.contains (.act s.act) = true
  reached : ∀ a ∈ s.reachedActs, c.contains (.act a) = true
  fired : ∀ b ∈ s.firedBeats, c.contains (.beat b) = true
  latched : ∀ b ∈ s.latchedBeats, c.contains (.beat b) = true
  spokes : ∀ x ∈ s.completedSpokes, c.contains (.spoke x) = true
  used : ∀ i ∈ s.usedInteractions, c.contains (.interaction i) = true
  victory : ∀ v ∈ s.victory, c.contains (.victory v) = true

variable {c : Catalog} {s t : State}

theorem declared_iff : s.Declared c ↔ ∀ key ∈ s.references, c.contains key = true := by
  simp only [references, SortedMap.keys, List.cons_append, List.forall_mem_cons,
    List.forall_mem_append, List.forall_mem_map, List.forall_mem_flatMap, SortedSet.mem_toList,
    Option.mem_toList]
  constructor
  · intro h
    exact ⟨h.location, ⟨⟨⟨⟨⟨⟨⟨⟨h.inventory,
      fun e he => h.counters e.1 e.2 (SortedMap.get?_eq_some_iff.2 he)⟩,
      fun e he => h.overrides e.1 e.2 (SortedMap.get?_eq_some_iff.2 he)⟩, h.act, h.reached⟩,
      h.fired⟩, h.latched⟩, h.spokes⟩, h.used⟩, h.victory⟩⟩
  · rintro ⟨hlocation, ⟨⟨⟨⟨⟨⟨⟨⟨hinventory, hcounters⟩, hoverrides⟩, hact, hreached⟩, hfired⟩,
      hlatched⟩, hspokes⟩, hused⟩, hvictory⟩⟩
    exact ⟨hlocation, hinventory,
      fun p own h => hcounters (p, own) (SortedMap.get?_eq_some_iff.1 h),
      fun key o h => hoverrides (key, o) (SortedMap.get?_eq_some_iff.1 h), hact, hreached, hfired,
      hlatched, hspokes, hused, hvictory⟩

/-- Nothing dangles exactly if all is declared. -/
theorem dangling_eq_nil_iff : s.dangling c = [] ↔ s.Declared c := by
  rw [declared_iff]
  unfold dangling
  rw [List.eq_nil_iff_forall_not_mem]
  constructor
  · intro h key hkey
    by_contra hcontains
    refine h key.text (SortedSet.mem_toList.2 (SortedSet.mem_ofList.2 (List.mem_map_of_mem ?_)))
    exact List.mem_filter.2 ⟨hkey, by simpa using hcontains⟩
  · intro h text htext
    obtain ⟨key, hkey, -⟩ := List.mem_map.1 (SortedSet.mem_ofList.1 (SortedSet.mem_toList.1 htext))
    obtain ⟨hkey, hmissing⟩ := List.mem_filter.1 hkey
    rw [h key hkey] at hmissing
    cases hmissing

theorem mem_of_mem_noted {noted : Prop} [Decidable noted] {as : List EntityId} {a x : EntityId}
    (h : x ∈ if noted then as else as ++ [a]) : x ∈ as ∨ x = a := by
  split at h
  · exact .inl h
  · exact (List.mem_append.1 h).imp_right List.mem_singleton.1

theorem eq_of_mem_differing {α : Type} [DecidableEq α] {authored : Option α} {x y : α}
    (h : y ∈ differing authored x) : y = x := by
  unfold differing at h
  split at h
  · cases h
  · exact (Option.mem_some_iff.1 h).symm

namespace Declared

theorem updateOverride (hs : s.Declared c) {key : EntityKey} {change : Override → Override}
    (hkey : c.contains key = true)
    (hchange : ∀ o, ∀ k ∈ (change o).targets, k ∈ o.targets ∨ c.contains k = true) :
    (s.updateOverride key change).Declared c := by
  have hoverrides : ∀ k o, (s.updateOverride key change).overrides.get? k = some o →
      c.contains k = true ∧ ∀ x ∈ o.targets, c.contains x = true := by
    intro k o ho
    rcases get?_overrides_updateOverride ho with h | ⟨rfl, -, old, hold, rfl⟩
    · exact hs.overrides k o h
    · refine ⟨hkey, fun x hx => ?_⟩
      rcases hchange old x hx with hx | hx
      · rcases overrideOf_cases hold with h | h
        · exact (hs.overrides k old h).2 x hx
        · rw [Override.targets_of_empty? h] at hx
          cases hx
      · exact hx
  obtain ⟨overrides, hsame⟩ := exists_updateOverride_eq s key change
  rw [hsame] at hoverrides ⊢
  exact { hs with overrides := hoverrides }

theorem setPlacement (hs : s.Declared c) {i : EntityId} (hi : c.contains (.item i) = true)
    {p : Placement} (hp : ∀ k ∈ p.targets, c.contains k = true) :
    (s.setPlacement c i p).Declared c := by
  refine hs.updateOverride hi fun o k hk => ?_
  rcases Override.mem_targets_withPlacement hk with hold | ⟨q, hq, hnew⟩
  · exact .inl hold
  · rw [eq_of_mem_differing hq] at hnew
    exact .inr (hp k hnew)

theorem putItem (hs : s.Declared c) {i : EntityId} (hi : c.contains (.item i) = true)
    {p : Placement} (hp : ∀ k ∈ p.targets, c.contains k = true) : (s.putItem c i p).Declared c := by
  have hremoved : (s.removeItem i).Declared c :=
    { hs with inventory := fun x hx => hs.inventory x (List.mem_filter.1 hx).1 }
  exact hremoved.setPlacement hi hp

theorem takeItem (hs : s.Declared c) {i : EntityId} (hi : c.contains (.item i) = true) :
    (s.takeItem c i).Declared c := by
  have hadded : (s.addItem i).Declared c := by
    rw [addItem_eq]
    refine { hs with inventory := fun x hx => ?_ }
    rcases mem_of_mem_noted hx with hx | rfl
    · exact hs.inventory x hx
    · exact hi
  exact hadded.setPlacement hi (by simp [Placement.targets])

theorem setCounter (hs : s.Declared c) {p : EntityId} (hp : c.contains (.character p) = true)
    (n : String) (x : Count) : (s.setCounter c p n x).Declared c := by
  have hcounters : ∀ q own, (s.setCounter c p n x).counters.get? q = some own →
      c.contains (.character q) = true := by
    intro q own h
    rcases get?_counters_setCounter h with rfl | ⟨own', h⟩
    · exact hp
    · exact hs.counters q own' h
  obtain ⟨counters, hsame⟩ := exists_setCounter_eq (c := c) (s := s) p n x
  rw [hsame] at hcounters ⊢
  exact { hs with counters := hcounters }

theorem enterAct (hs : s.Declared c) {a : EntityId} (ha : c.contains (.act a) = true) :
    (s.enterAct a).Declared c := by
  refine { hs with act := ha, reached := fun x hx => ?_ }
  rcases mem_of_mem_noted hx with hx | rfl
  · exact hs.reached x hx
  · exact ha

theorem advanceTo (hs : s.Declared c) (a : EntityId) : (s.advanceTo c a).Declared c := by
  have hfold : ∀ as : List Act, (∀ d ∈ as, d ∈ c.acts.toList) →
      (as.foldl (fun s d => s.enterAct d.id) s).Declared c := by
    intro as
    induction as generalizing s with
    | nil => exact fun _ => hs
    | cons d ds ih =>
      intro hds
      have hentered := hs.enterAct (Table.contains_of_mem (hds d (.head _)))
      exact ih hentered fun e he => hds e (.tail _ he)
  unfold State.advanceTo
  split
  · exact hfold _ fun d hd => List.mem_of_mem_drop (List.mem_of_mem_take hd)
  · exact hs

/-- What an effect names is declared, so it leaves nothing undeclared behind. -/
theorem change (hs : s.Declared c) {e : Effect}
    (he : ∀ key ∈ e.references, c.contains key = true) : (s.change c e).Declared c := by
  cases e with
  | setFlag | clearFlag => exact { hs with }
  | giveItem item => exact hs.takeItem (he _ (.head _))
  | removeItem item =>
    show Declared c (if s.hasItem item = true then s.putItem c item .limbo else s)
    split
    · exact hs.putItem (he _ (.head _)) (by simp [Placement.targets])
    · exact hs
  | destroyItem item => exact hs.putItem (he _ (.head _)) (by simp [Placement.targets])
  | placeItem item l | handItem item p =>
    refine hs.putItem (he _ (.head _)) fun k hk => ?_
    rw [List.mem_singleton.1 hk]
    exact he _ (.tail _ (.head _))
  | movePlayer l => exact { hs with location := he _ (.head _) }
  | moveCharacter p l =>
    refine hs.updateOverride (he _ (.head _)) fun o k hk => ?_
    rcases Override.mem_targets_withLocation hk with hk | ⟨x, hx, rfl⟩
    · exact .inl hk
    · obtain rfl := eq_of_mem_differing hx
      exact .inr (he _ (.tail _ (.head _)))
  | adjustCounter p n d | setCounter p n d => exact hs.setCounter (he _ (.head _)) n _
  | lockExit x b =>
    refine hs.updateOverride (he _ (.head _)) fun o k hk => .inl ?_
    rwa [Override.targets_withLocked] at hk
  | hideExit x b =>
    refine hs.updateOverride (he _ (.head _)) fun o k hk => .inl ?_
    rwa [Override.targets_withHidden] at hk
  | describe key text =>
    show Declared c (s.describe c key text)
    unfold State.describe
    split
    · refine hs.updateOverride (he _ (.head _)) fun o k hk => .inl ?_
      rwa [Override.targets_withDescription] at hk
    · exact hs
  | completeSpoke x =>
    refine { hs with spokes := fun y hy => ?_ }
    rcases SortedSet.mem_insert.1 hy with rfl | hy
    · exact he _ (.head _)
    · exact hs.spokes y hy
  | advanceAct a => exact hs.advanceTo a

theorem kept : Kept c (Declared c) := by
  intro s t hs h
  cases h with
  | counted => exact { hs with }
  | applied e h =>
    obtain ⟨he, -, rfl⟩ := apply_eq_ok_iff.1 h
    exact hs.change he
  | used d hd =>
    refine { hs with used := fun x hx => ?_ }
    rcases SortedSet.mem_insert.1 hx with rfl | hx
    · exact Table.contains_of_mem hd
    · exact hs.used x hx
  | fired b hb =>
    rw [markFired_eq]
    refine { hs with fired := fun x hx => ?_ }
    rcases mem_of_mem_noted hx with hx | rfl
    · exact hs.fired x hx
    · exact Table.contains_of_mem hb
  | latched b hb on =>
    refine { hs with latched := fun x hx => ?_ }
    unfold setLatch at hx
    dsimp only at hx
    split at hx
    · rcases SortedSet.mem_insert.1 hx with rfl | hx
      · exact Table.contains_of_mem hb
      · exact hs.latched x hx
    · exact hs.latched x (SortedSet.mem_erase.1 hx).2
  | recorded d hd =>
    refine { hs with spokes := fun y hy => ?_ }
    rcases SortedSet.mem_insert.1 hy with rfl | hy
    · exact Table.contains_of_mem hd
    · exact hs.spokes y hy
  | entered a ha => exact hs.enterAct (Table.contains_of_mem ha)
  | won d hd =>
    refine { hs with victory := fun v hv => ?_ }
    obtain rfl := Option.mem_some_iff.1 hv
    exact Table.contains_of_mem hd

theorem initial (hc : c.Accepted) (hstart : c.start.location ≠ "") :
    (State.initial c).Declared c := by
  have hsound := hc.soundStart hstart
  have hact := hc.initialAct_declared hstart
  refine ⟨hsound.location, hsound.inventory, ?_, ?_, hact, ?_, ?_, ?_, ?_, ?_, ?_⟩
  · exact fun _ _ h => nomatch h
  · exact fun _ _ h => nomatch h
  · intro a ha
    rw [List.mem_singleton.1 ha]
    exact hact
  · exact fun _ h => nomatch h
  · exact fun _ h => absurd h (SortedSet.not_mem_empty _)
  · exact fun _ h => absurd h (SortedSet.not_mem_empty _)
  · exact fun _ h => absurd h (SortedSet.not_mem_empty _)
  · exact fun _ h => nomatch h

/-- Where the start is named, nothing ever dangles. -/
theorem reachable (hc : c.Accepted) (hstart : c.start.location ≠ "") (h : Reachable c s) :
    s.Declared c := kept.reaches (initial hc hstart) h

end Declared

end State
end Storyworld
