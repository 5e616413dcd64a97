import Storyworld.Proofs.Accepted
import Storyworld.Proofs.Runs
import Storyworld.Proofs.World

/-!
# The store refines the dense world

Overrides stay of the kind of their key and carried items stay on record as carried (`Consistent`)
through every run. In such a store an effect can be applied exactly when the dense world has an
update by it, and then does what the update does (`World.of_apply`); what the view resolves agrees
with the dense world besides (`View.Agrees`).
-/

namespace Storyworld

/-- Overrides are of the kind of their key, and what is carried is on record as carried. -/
structure State.Consistent (c : Catalog) (s : State) : Prop where
  kinds : s.KindsMatch
  stowed : ∀ i, s.hasItem i = true → (View.mk c s).recordedPlacement i = .carried

namespace State.Consistent

variable {c : Catalog} {s t : State}

theorem initial : Consistent c (.initial c) where
  kinds _ _ h := by cases h
  stowed i h := Catalog.initialPlacement_eq_carried.2 (List.contains_iff_mem.1 h)

theorem write (hs : s.Consistent c) {α : Type} {f : Override.Facet α} (hf : f.Apart .placement)
    (key : EntityKey) (x : Option α) : (s.updateOverride key (f.set x)).Consistent c where
  kinds := hs.kinds.updateOverride (f.kind_set x)
  stowed i hi := by
    obtain ⟨_, hsame⟩ := exists_updateOverride_eq s key (f.set x)
    rw [hsame] at hi
    rw [View.recordedPlacement_of_apart hs.kinds x hf]
    exact hs.stowed i hi

theorem setPlacement (hs : s.KindsMatch) {i : EntityId} {p : Placement}
    (hi : s.hasItem i = true → p = .carried)
    (hstowed : ∀ j, j ≠ i → s.hasItem j = true → (View.mk c s).recordedPlacement j = .carried) :
    (s.setPlacement c i p).Consistent c where
  kinds := hs.updateOverride (Override.Facet.placement.kind_set _)
  stowed j hj := by
    obtain ⟨_, hsame⟩ := exists_updateOverride_eq s (.item i)
      (Override.Facet.placement.set (differing (some (c.initialPlacement i)) p))
    rw [setPlacement_eq, hsame] at hj
    rw [View.recordedPlacement_setPlacement hs]
    split
    · rename_i heq
      exact hi (heq ▸ hj)
    · rename_i hne
      exact hstowed j hne hj

theorem putItem (hs : s.Consistent c) (i : EntityId) (p : Placement) :
    (s.putItem c i p).Consistent c := by
  refine setPlacement (s := s.removeItem i) hs.kinds (fun h => ?_) fun j hj hcarried => ?_
  · simp [hasItem, removeItem] at h
  · refine hs.stowed j ?_
    simpa [hasItem, removeItem, hj] using hcarried

theorem takeItem (hs : s.Consistent c) (i : EntityId) : (s.takeItem c i).Consistent c := by
  have hkinds : (s.addItem i).KindsMatch := by
    rw [addItem_eq]
    exact hs.kinds
  refine setPlacement hkinds (fun _ => rfl) fun j hj hcarried => ?_
  rw [addItem_eq] at hcarried ⊢
  refine hs.stowed j ?_
  unfold hasItem at hcarried ⊢
  split at hcarried
  · exact hcarried
  · simpa [hj] using hcarried

theorem change (hs : s.Consistent c) (e : Effect) : (s.change c e).Consistent c := by
  cases e with
  | setFlag | clearFlag | movePlayer | completeSpoke => exact ⟨hs.kinds, hs.stowed⟩
  | giveItem item => exact hs.takeItem item
  | removeItem item =>
    show State.Consistent c (if s.hasItem item = true then s.putItem c item .limbo else s)
    split
    · exact hs.putItem item _
    · exact hs
  | destroyItem item => exact hs.putItem item _
  | placeItem item location => exact hs.putItem item _
  | handItem item character => exact hs.putItem item _
  | moveCharacter p l => exact hs.write Override.Facet.location_apart.1 _ _
  | adjustCounter p n d | setCounter p n d =>
    obtain ⟨_, hsame⟩ := exists_setCounter_eq (c := c) (s := s) p n _
    show State.Consistent c (s.setCounter c p n _)
    rw [hsame]
    exact ⟨hs.kinds, hs.stowed⟩
  | lockExit x b => exact hs.write Override.Facet.locked_apart.1 _ _
  | hideExit x b => exact hs.write Override.Facet.hidden_apart.1 _ _
  | describe key text =>
    show State.Consistent c (s.describe c key text)
    unfold State.describe
    split
    · exact hs.write Override.Facet.description_apart.1 _ _
    · exact hs
  | advanceAct act =>
    obtain ⟨_, _, hsame⟩ := exists_advanceTo_eq (c := c) (s := s) act
    show State.Consistent c (s.advanceTo c act)
    rw [hsame]
    exact ⟨hs.kinds, hs.stowed⟩

theorem kept : Kept c (Consistent c) := by
  intro s t hs h
  cases h with
  | applied e h =>
    obtain ⟨-, -, rfl⟩ := apply_eq_ok_iff.1 h
    exact hs.change e
  | fired b =>
    rw [markFired_eq]
    exact ⟨hs.kinds, hs.stowed⟩
  | _ => exact ⟨hs.kinds, hs.stowed⟩

theorem reachable (h : Reachable c s) : s.Consistent c := kept.reaches initial h

end State.Consistent

/-! ### Resolved entities -/

/-- What the view resolves of items and characters agrees with their placements and counters. -/
structure View.Agrees (v : View) : Prop where
  home : ∀ i d, v.item? i = some d →
    d.location = (v.placement i).location? ∧ d.holder = (v.placement i).holder?
  counter : ∀ p d, v.character? p = some d →
    ∀ name, (d.counters.get? name).getD 0 = v.counter p name

section
variable {c : Catalog} {s t : State}

theorem View.counter_of_character? {v : View} {p : EntityId} {d : Character}
    (h : v.character? p = some d) (name : String) :
    (d.counters.get? name).getD 0 = v.counter p name := by
  obtain ⟨authored, hauthored, hown⟩ : ∃ authored, v.catalog.characters.get? p = some authored ∧
      d.counters = ((v.state.counters.get? p).getD .empty).toList.foldl
        (fun m e => m.insert e.1 e.2) authored.counters := by
    unfold View.character? at h
    obtain ⟨authored, hauthored, rfl⟩ := Option.map_eq_some_iff.1 h
    refine ⟨authored, hauthored, ?_⟩
    cases v.override? (.character p) with
    | none => rfl
    | some o => cases o <;> rfl
  unfold View.counter State.counterOverride? Catalog.authoredCounter
  rw [hown, SortedMap.get?_foldl_insert _ (SortedMap.sorted _), hauthored]
  show ((((v.state.counters.get? p).getD .empty).get? name).or _).getD 0 = _
  cases hc : v.state.counters.get? p with
  | none => rfl
  | some own => cases hn : own.get? name <;> simp [hn]

theorem View.home_of_item? (hc : c.Accepted) (hstart : c.start.location ≠ "")
    (hs : s.Consistent c) {i : EntityId} {d : Item} (h : (View.mk c s).item? i = some d) :
    d.location = ((View.mk c s).placement i).location? ∧
      d.holder = ((View.mk c s).placement i).holder? := by
  have hrecorded : d.location = ((View.mk c s).recordedPlacement i).location? ∧
      d.holder = ((View.mk c s).recordedPlacement i).holder? := by
    unfold View.item? at h
    obtain ⟨authored, hauthored, rfl⟩ := Option.map_eq_some_iff.1 h
    have hhome := hc.authored_home hstart hauthored
    unfold View.recordedPlacement
    cases ho : (View.mk c s).override? (.item i) with
    | none => exact hhome
    | some o =>
      obtain ⟨p, _, rfl⟩ := Override.eq_item (hs.kinds _ _ ho)
      cases p with
      | none => exact hhome
      | some p => exact ⟨rfl, rfl⟩
  -- Carried items, and those that are only on record as carried, have no home.
  unfold View.placement
  split
  · rename_i hcarried
    rwa [hs.stowed i hcarried] at hrecorded
  · cases hr : (View.mk c s).recordedPlacement i <;> rw [hr] at hrecorded <;> exact hrecorded

theorem State.Consistent.agrees (hc : c.Accepted) (hstart : c.start.location ≠ "")
    (hs : s.Consistent c) : (View.mk c s).Agrees where
  home _ _ := View.home_of_item? hc hstart hs
  counter _ _ := View.counter_of_character?

/-! ### Refinement -/

theorem World.allows_iff {e : Effect} : (World.of c s).Allows e ↔ s.obstacle? c e = none := by
  unfold World.Allows State.obstacle?
  cases e with
  | giveItem item | placeItem item _ | handItem item _ =>
    show (View.mk c s).placement item ≠ .destroyed ↔ _
    simp
  | describe key text => simp
  | _ => simp

/-- In every state that turns lead to, an effect can be applied exactly when the dense world has an
update by it, the store it leaves stands for the updated world, and what is resolved before and
after agrees with the two worlds. -/
theorem World.of_apply (hc : c.Accepted) (hstart : c.start.location ≠ "") (hs : Reachable c s)
    (e : Effect) :
    (s.apply c e).toOption.map (World.of c) = (World.of c s).update c e ∧
      (View.mk c s).Agrees ∧ ∀ t, s.apply c e = .ok t → (View.mk c t).Agrees := by
  have hs := State.Consistent.reachable hs
  have hafter : ∀ t, s.apply c e = .ok t → t.Consistent c := fun t ht =>
    State.Consistent.kept _ _ hs (.applied e ht)
  refine ⟨?_, hs.agrees hc hstart, fun t ht => (hafter t ht).agrees hc hstart⟩
  unfold World.update
  cases hap : s.apply c e with
  | ok t =>
    obtain ⟨hdeclared, hfree, rfl⟩ := State.apply_eq_ok_iff.1 hap
    have hallows := World.allows_iff.2 hfree
    rw [if_pos ⟨hdeclared, hallows⟩, ← World.of_change hs.kinds hdeclared hallows]
    rfl
  | error bad =>
    rw [if_neg fun h => ?_]
    · rfl
    · rw [State.apply_eq_ok_iff.2 ⟨h.1, World.allows_iff.1 h.2, rfl⟩] at hap
      cases hap

end

/-- A cellar with a lantern in it. -/
def cellarDoc : WorldDocument where
  world := some { title := "Cellar" }
  start := some { location := "cellar" }
  locations := [{ id := "cellar", name := "Cellar" }]
  items := [{ id := "lantern", name := "lantern", location := some "cellar" }]
  acts := [{ id := "night", locations := ["cellar"] }]

def cellar : Catalog := .draft cellarDoc

/-- Putting the lantern back where it was authored to lie takes its override away, and the world is
updated all the same. -/
theorem World.of_apply_cellar :
    cellar.Accepted ∧ cellar.start.location ≠ "" ∧
      (let s := (Line.play cellar { input := "take lantern" } (.initial cellar)).state
       Reachable cellar s ∧
       (s.apply cellar (.placeItem "lantern" "cellar")).toOption.map (World.of cellar) =
          (World.of cellar s).update cellar (.placeItem "lantern" "cellar")) := by
  have haccepted : cellar.Accepted := ⟨cellarDoc, Catalog.ofDocument_eq_ok_iff.2 ⟨by decide, rfl⟩⟩
  have hstart : cellar.start.location ≠ "" := by decide
  have hreach :
      Reachable cellar (Line.play cellar { input := "take lantern" } (.initial cellar)).state :=
    .turn .refl _
  exact ⟨haccepted, hstart, hreach, (World.of_apply haccepted hstart hreach _).1⟩

end Storyworld
