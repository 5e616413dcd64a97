import Storyworld.Proofs.Refinement

/-!
# Where items are

The inventory says of an item that it is carried, and so does its placement on record. An effect
leaves all items where they are or moves one of them, in the inventory and on record alike
(`State.shift_change`), so the two agree in every state that turns lead to (`State.Tallies`). Where
an item is then has one answer, whoever is asked (`View.one_answer`).
-/

namespace Storyworld

namespace State

/-- From one state to another all items stay where they are, or one is moved, in the inventory and
on record alike. -/
inductive Shift (c : Catalog) (s t : State) : Prop
  | stay
    (h : ∀ i, t.hasItem i = s.hasItem i ∧
      (View.mk c t).recordedPlacement i = (View.mk c s).recordedPlacement i)
  | move (i : EntityId) (p : Placement)
    (h : ∀ j, t.hasItem j = (if j = i then decide (p = .carried) else s.hasItem j) ∧
      (View.mk c t).recordedPlacement j = if j = i then p else (View.mk c s).recordedPlacement j)

variable {c : Catalog} {s t : State}

theorem hasItem_updateOverride (key : EntityKey) (change : Override → Override) (i : EntityId) :
    (s.updateOverride key change).hasItem i = s.hasItem i := by
  obtain ⟨_, hsame⟩ := exists_updateOverride_eq s key change
  rw [hsame]
  rfl

theorem shift_write (hs : s.KindsMatch) {α : Type} {f : Override.Facet α}
    (hf : f.Apart .placement) (key : EntityKey) (x : Option α) :
    Shift c s (s.updateOverride key (f.set x)) :=
  .stay fun i => ⟨hasItem_updateOverride .., View.recordedPlacement_of_apart hs x hf i⟩

theorem shift_putItem (hs : s.KindsMatch) (i : EntityId) {p : Placement} (hp : p ≠ .carried) :
    Shift c s (s.putItem c i p) := by
  refine .move i p fun j => ⟨?_, ?_⟩
  · unfold putItem
    rw [setPlacement_eq, hasItem_updateOverride]
    by_cases hj : j = i <;> simp [hasItem, removeItem, hj, hp]
  · exact View.recordedPlacement_setPlacement (s := s.removeItem i) hs i j p

theorem shift_takeItem (hs : s.KindsMatch) (i : EntityId) : Shift c s (s.takeItem c i) := by
  refine .move i .carried fun j => ⟨?_, ?_⟩
  · unfold takeItem
    rw [setPlacement_eq, hasItem_updateOverride, addItem_eq]
    unfold hasItem
    by_cases hj : j = i <;> by_cases hi : i ∈ s.inventory <;> simp [hj, hi]
  · have hkinds : (s.addItem i).KindsMatch := by
      rw [addItem_eq]
      exact hs
    unfold takeItem
    rw [View.recordedPlacement_setPlacement hkinds, addItem_eq]
    rfl

theorem shift_change (hs : s.KindsMatch) (e : Effect) : Shift c s (s.change c e) := by
  cases e with
  | setFlag | clearFlag | movePlayer | completeSpoke => exact .stay fun _ => ⟨rfl, rfl⟩
  | giveItem item => exact shift_takeItem hs item
  | removeItem item =>
    show Shift c s (if s.hasItem item = true then s.putItem c item .limbo else s)
    split
    · exact shift_putItem hs item (by simp)
    · exact .stay fun _ => ⟨rfl, rfl⟩
  | destroyItem item => exact shift_putItem hs item (by simp)
  | placeItem item location => exact shift_putItem hs item (by simp)
  | handItem item character => exact shift_putItem hs item (by simp)
  | moveCharacter p l => exact shift_write hs Override.Facet.location_apart.1 _ _
  | adjustCounter p n d | setCounter p n d =>
    obtain ⟨_, hsame⟩ := exists_setCounter_eq (c := c) (s := s) p n _
    show Shift c s (s.setCounter c p n _)
    rw [hsame]
    exact .stay fun _ => ⟨rfl, rfl⟩
  | lockExit x b => exact shift_write hs Override.Facet.locked_apart.1 _ _
  | hideExit x b => exact shift_write hs Override.Facet.hidden_apart.1 _ _
  | describe key text =>
    show Shift c s (s.describe c key text)
    unfold State.describe
    split
    · exact shift_write hs Override.Facet.description_apart.1 _ _
    · exact .stay fun _ => ⟨rfl, rfl⟩
  | advanceAct act =>
    obtain ⟨_, _, hsame⟩ := exists_advanceTo_eq (c := c) (s := s) act
    show Shift c s (s.advanceTo c act)
    rw [hsame]
    exact .stay fun _ => ⟨rfl, rfl⟩

/-- The items in the inventory are those on record as carried. -/
def Tallies (c : Catalog) (s : State) : Prop :=
  ∀ i, s.hasItem i = true ↔ (View.mk c s).recordedPlacement i = .carried

namespace Tallies

theorem initial : Tallies c (.initial c) := by
  intro i
  show c.start.inventory.contains i = true ↔ c.initialPlacement i = .carried
  rw [Catalog.initialPlacement_eq_carried, List.contains_iff_mem]

theorem shift (hs : Tallies c s) (h : Shift c s t) : Tallies c t := by
  intro j
  cases h with
  | stay h =>
    rw [(h j).1, (h j).2]
    exact hs j
  | move i p h =>
    rw [(h j).1, (h j).2]
    split
    · exact decide_eq_true_iff
    · exact hs j

theorem kept : Kept c fun s => s.Consistent c ∧ s.Tallies c := by
  intro s t ⟨hs, htally⟩ h
  refine ⟨Consistent.kept s t hs h, ?_⟩
  cases h with
  | applied e h =>
    obtain ⟨-, -, rfl⟩ := apply_eq_ok_iff.1 h
    exact htally.shift (shift_change hs.kinds e)
  | fired b =>
    rw [markFired_eq]
    exact htally
  | _ => exact htally

theorem reachable (h : Reachable c s) : s.Tallies c :=
  (kept.reaches ⟨.initial, initial⟩ h).2

/-- The effective placement is the one on record. -/
theorem placement_eq (hs : s.Tallies c) (i : EntityId) :
    (View.mk c s).placement i = (View.mk c s).recordedPlacement i := by
  cases hi : s.hasItem i with
  | true => rw [View.placement_of_carried hi, (hs i).1 hi]
  | false =>
    exact View.placement_of_recorded hi fun h => by
      rw [(hs i).2 h] at hi
      cases hi

end Tallies
end State

/-- In every state that turns lead to, a declared item is in the inventory exactly if it is on
record as carried, and the item as resolved lies in a location or is held by a character exactly if
that is its placement. -/
theorem View.one_answer {c : Catalog} (hc : c.Accepted) (hstart : c.start.location ≠ "")
    {s : State} (hs : Reachable c s) {i : EntityId} (hi : c.contains (.item i) = true) :
    let v := View.mk c s
    (i ∈ s.inventory ↔ v.recordedPlacement i = .carried) ∧
      v.placement i = v.recordedPlacement i ∧
      ∃ d, v.item? i = some d ∧
        (∀ l, d.location = some l ↔ v.placement i = .location l) ∧
        (∀ p, d.holder = some p ↔ v.placement i = .holder p) ∧
        (v.placement i = .carried ∨ v.placement i = .limbo ∨ v.placement i = .destroyed →
          d.location = none ∧ d.holder = none) := by
  have htally := State.Tallies.reachable hs
  have hitem : ∃ d, (View.mk c s).item? i = some d := by
    obtain ⟨d, hd⟩ := Option.isSome_iff_exists.1 ((Table.contains_eq_isSome_get? _ _).symm.trans hi)
    unfold View.item?
    rw [hd]
    exact ⟨_, rfl⟩
  obtain ⟨d, hd⟩ := hitem
  obtain ⟨hlocation, hholder⟩ :=
    View.home_of_item? hc hstart (State.Consistent.reachable hs) hd
  refine ⟨?_, htally.placement_eq i, d, hd, ?_⟩
  · rw [← htally i]
    simp [State.hasItem]
  · rw [hlocation, hholder]
    cases (View.mk c s).placement i <;> simp [Placement.location?, Placement.holder?]

theorem cellar_accepted : cellar.Accepted :=
  ⟨cellarDoc, Catalog.ofDocument_eq_ok_iff.2 ⟨by decide, rfl⟩⟩

/-- The lantern that was taken in the cellar is in the inventory and on record as carried, and lies
nowhere. -/
theorem lantern_in_hand :
    cellar.Accepted ∧ cellar.start.location ≠ "" ∧ cellar.contains (.item "lantern") = true ∧
      (let s := (Line.play cellar { input := "take lantern" } (.initial cellar)).state
       Reachable cellar s ∧ "lantern" ∈ s.inventory ∧
       (View.mk cellar s).recordedPlacement "lantern" = .carried ∧
       ∃ d, (View.mk cellar s).item? "lantern" = some d ∧ d.location = none) := by
  have hstart : cellar.start.location ≠ "" := by decide
  have hlantern : cellar.contains (.item "lantern") = true := by decide
  have hreach :
      Reachable cellar (Line.play cellar { input := "take lantern" } (.initial cellar)).state :=
    .turn .refl _
  have hcarried : "lantern" ∈
      (Line.play cellar { input := "take lantern" } (.initial cellar)).state.inventory := by
    decide +kernel
  obtain ⟨hinventory, hplacement, d, hd, -, -, hout⟩ :=
    View.one_answer cellar_accepted hstart hreach hlantern
  have hrecorded := hinventory.1 hcarried
  exact ⟨cellar_accepted, hstart, hlantern, hreach, hcarried, hrecorded, d, hd,
    (hout (.inl (hplacement.trans hrecorded))).1⟩

end Storyworld
