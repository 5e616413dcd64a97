import Storyworld.Proofs.Simulation

/-!
# Reading back what effects set

An effect that sets a field of an entity sets it in the entity's override, and is read back from
there. A save may hold an override of another kind for an entity, though, in which there is no such
field; then the entity is read as it was authored, whatever is set. `Effect.readBack_iff` says of
every state, restored or not, when an update is read back. Beside such overrides it is lost only
where the player is given what the start carries, if that is authored to lie somewhere all the same.
-/

namespace Storyworld

/-- Where an item is by its effective definition: its location and its holder. -/
def View.home? (v : View) (i : EntityId) : Option (Option EntityId × Option EntityId) :=
  (v.item? i).map fun d => (d.location, d.holder)

namespace Effect

/-- The entity of which an effect sets a field. -/
def subject? : Effect → Option EntityKey
  | lockExit x _ | hideExit x _ => some (.exit x)
  | placeItem i _ | giveItem i | handItem i _ | destroyItem i => some (.item i)
  | moveCharacter p _ => some (.character p)
  | describe key _ => some key
  | _ => none

/-- What the effect sets is what is read. -/
def ReadBack (v : View) : Effect → Prop
  | lockExit x locked => v.locked? x = some locked
  | hideExit x hidden => v.hidden? x = some hidden
  | placeItem i l => v.placement i = .location l ∧ v.home? i = some (some l, none)
  | giveItem i => v.placement i = .carried ∧ v.home? i = some (none, none)
  | handItem i p => v.placement i = .holder p ∧ v.home? i = some (none, some p)
  | destroyItem i => v.placement i = .destroyed ∧ v.home? i = some (none, none)
  | moveCharacter p l => v.standing? p = some l
  | describe key text => v.text? key = some text
  | _ => True

/-- What the effect sets is as it was authored. -/
def Restates (c : Catalog) : Effect → Prop
  | lockExit x locked => (c.exits.get? x).map (·.locked) = some locked
  | hideExit x hidden => (c.exits.get? x).map (·.hidden) = some hidden
  | placeItem i l => c.initialPlacement i = .location l
  | giveItem i => (c.items.get? i).map (fun d => (d.location, d.holder)) = some (none, none)
  | handItem i p => c.initialPlacement i = .holder p
  | destroyItem i => c.initialPlacement i = .destroyed
  | moveCharacter p l => (c.characters.get? p).bind (·.location) = some l
  | describe key text => c.authoredDescription? key = some text
  | _ => True

end Effect

/-! ### Fields -/

namespace Override.Facet

variable {o : Override}

theorem get_placement_of_ne (h : o.kind ≠ .item) : placement.get o = none := by
  cases o <;> first | rfl | exact absurd rfl h

theorem get_location_of_ne (h : o.kind ≠ .character) : location.get o = none := by
  cases o <;> first | rfl | exact absurd rfl h

theorem get_locked_of_ne (h : o.kind ≠ .exit) : locked.get o = none := by
  cases o <;> first | rfl | exact absurd rfl h

theorem get_hidden_of_ne (h : o.kind ≠ .exit) : hidden.get o = none := by
  cases o <;> first | rfl | exact absurd rfl h

end Override.Facet

namespace State

open Override (Facet)

variable {α : Type} {f : Facet α} {s : State} {key : EntityKey} {change : Override → Override}

theorem Filed.updateOverride (h : s.Filed key) (hkind : ∀ o, (change o).kind = o.kind) :
    (s.updateOverride key change).Filed key := by
  intro o ho
  rcases get?_overrides_updateOverride ho with ho | ⟨-, -, old, hold, rfl⟩
  · exact h o ho
  · rw [hkind]
    exact kind_of_overrideOf h hold

theorem kind_ne_of_not_filed (h : ¬s.Filed key) (hkind : ∀ o, (change o).kind = o.kind)
    {o : Override} (ho : (s.updateOverride key change).overrides.get? key = some o) :
    o.kind ≠ key.kind := by
  obtain ⟨odd, hodd, hne⟩ : ∃ odd, s.overrides.get? key = some odd ∧ odd.kind ≠ key.kind := by
    simpa [Filed] using h
  rcases get?_overrides_updateOverride ho with ho | ⟨-, -, old, hold, rfl⟩
  · obtain rfl := Option.some.inj (hodd.symm.trans ho)
    exact hne
  · rw [hkind]
    unfold overrideOf at hold
    rw [hodd] at hold
    obtain rfl := Option.some.inj hold
    exact hne

/-- Nothing is read of a field that the override of another kind does not have. -/
theorem read_set_of_not_filed (h : ¬s.Filed key)
    (hlacks : ∀ o, o.kind ≠ key.kind → f.get o = none) (x : Option α) :
    (s.updateOverride key (f.set x)).read f key = none := by
  rw [← get?_bind]
  exact Option.bind_eq_none_iff.2 fun o ho => hlacks o (kind_ne_of_not_filed h (f.kind_set x) ho)

/-- What a setter is given is read exactly if it is authored, or the override has the field. -/
theorem read_or_authored_iff [DecidableEq α] {authored : Option α} {x : α} (hkey : f.Of key.kind)
    (hlacks : ∀ o, o.kind ≠ key.kind → f.get o = none) :
    ((s.updateOverride key (f.set (differing authored x))).read f key).or authored = some x ↔
      authored = some x ∨ s.Filed key := by
  by_cases h : s.Filed key
  · have hor : (differing authored x).or authored = some x := by
      simpa using differing_or authored x
    rw [read_set_self h hkey, hor]
    simp [h]
  · rw [read_set_of_not_filed h hlacks]
    simp [h]

theorem read_description_set (hkey : key.kind.overridable = true) (d : Option String) :
    (s.updateOverride key (Facet.description.set d)).read .description key = d := by
  obtain ⟨old, hold⟩ : ∃ old, s.overrideOf key = some old := by
    obtain ⟨anew, hanew⟩ := Option.isSome_iff_exists.1 (Facet.description.empty_of _ hkey)
    unfold overrideOf
    rw [hanew]
    cases s.overrides.get? key with
    | none => exact ⟨anew, rfl⟩
    | some o => exact ⟨o, rfl⟩
  have hget : Facet.description.get (Facet.description.set d old) = d := by cases old <;> rfl
  rw [← get?_bind, updateOverride_of_some hold]
  split
  · rename_i hempty
    have hnone : d = none := by
      rw [← hget]
      exact Facet.description.get_empty _ _ (Override.empty?_of_isEmpty hempty)
    simp [hnone]
  · simpa using hget

end State

/-! ### Exits, characters and descriptions -/

namespace View

open Override (Facet)

variable {c : Catalog} {s : State} {v : View}

theorem locked_setLocked_iff {x : EntityId} {b : Bool} (hx : c.contains (.exit x) = true) :
    (View.mk c (s.setLocked c x b)).locked? x = some b ↔
      (c.exits.get? x).map (·.locked) = some b ∨ s.Filed (.exit x) := by
  obtain ⟨d, hd⟩ := Table.contains_iff_exists.1 hx
  rw [locked_eq, State.setLocked_eq, hd, Option.map_some, ← Option.or_some]
  exact State.read_or_authored_iff rfl fun _ => Facet.get_locked_of_ne

theorem hidden_setHidden_iff {x : EntityId} {b : Bool} (hx : c.contains (.exit x) = true) :
    (View.mk c (s.setHidden c x b)).hidden? x = some b ↔
      (c.exits.get? x).map (·.hidden) = some b ∨ s.Filed (.exit x) := by
  obtain ⟨d, hd⟩ := Table.contains_iff_exists.1 hx
  rw [hidden_eq, State.setHidden_eq, hd, Option.map_some, ← Option.or_some]
  exact State.read_or_authored_iff rfl fun _ => Facet.get_hidden_of_ne

theorem standing_moveCharacter_iff {p l : EntityId} (hp : c.contains (.character p) = true) :
    (View.mk c (s.moveCharacter c p l)).standing? p = some l ↔
      (c.characters.get? p).bind (·.location) = some l ∨ s.Filed (.character p) := by
  obtain ⟨d, hd⟩ := Table.contains_iff_exists.1 hp
  rw [standing_eq, State.moveCharacter_eq, hd, Option.bind_some, Option.bind_some,
    Option.orElse_eq_orElse, Option.orElse_eq_or]
  exact State.read_or_authored_iff rfl fun _ => Facet.get_location_of_ne

theorem text_location (id : EntityId) :
    v.text? (.location id) = (v.catalog.authoredDescription? (.location id)).map fun d =>
      (v.state.read .description (.location id)).getD d := by
  rw [← State.get?_bind]
  unfold text? resolve? location? override? Catalog.authoredDescription?
  cases v.catalog.locations.get? id <;> rfl

theorem text_of_unfiled {key : EntityKey} (hkind : key.kind ≠ .location)
    (h : ∀ o, v.state.overrides.get? key = some o → o.kind ≠ key.kind) :
    v.text? key = v.catalog.authoredDescription? key := by
  obtain ⟨kind, id⟩ := key
  cases kind
  case location => exact absurd rfl hkind
  case item =>
    unfold text? resolve? item? override? Catalog.authoredDescription?
    cases v.catalog.items.get? id with
    | none => rfl
    | some d =>
      cases ho : v.state.overrides.get? (.item id) with
      | none => rfl
      | some o => cases o <;> first | rfl | exact absurd rfl (h _ ho)
  case character =>
    unfold text? resolve? character? override? Catalog.authoredDescription?
    cases v.catalog.characters.get? id with
    | none => rfl
    | some d =>
      cases ho : v.state.overrides.get? (.character id) with
      | none => rfl
      | some o => cases o <;> first | rfl | exact absurd rfl (h _ ho)
  case exit =>
    unfold text? resolve? exit? override? Catalog.authoredDescription?
    cases v.catalog.exits.get? id with
    | none => rfl
    | some d =>
      cases ho : v.state.overrides.get? (.exit id) with
      | none => rfl
      | some o => cases o <;> first | rfl | exact absurd rfl (h _ ho)
  all_goals rfl

theorem text_describe_iff {key : EntityKey} {text : String} (hkey : c.contains key = true)
    (hkind : key.kind.overridable = true) :
    (View.mk c (s.describe c key text)).text? key = some text ↔
      c.authoredDescription? key = some text ∨ key.kind = .location ∨ s.Filed key := by
  obtain ⟨authored, hauthored⟩ := exists_authoredDescription? hkind hkey
  rw [State.describe_eq s c hkind]
  generalize hd : State.differing (c.authoredDescription? key) text = d
  have hset : (c.authoredDescription? key).map (fun authored =>
      ((s.updateOverride key (Facet.description.set d)).read .description key).getD authored) =
        some text := by
    rw [State.read_description_set hkind, ← hd, hauthored]
    exact congrArg some (State.getD_differing _ _)
  by_cases hlocation : key.kind = .location
  · obtain ⟨_, id⟩ := key
    obtain rfl : _ = EntityKind.location := hlocation
    exact iff_of_true ((text_location id).trans hset) (.inr (.inl rfl))
  by_cases hfiled : s.Filed key
  · have hread := text_eq (v := ⟨c, s.updateOverride key (Facet.description.set d)⟩)
      (hfiled.updateOverride (Facet.description.kind_set d))
    exact iff_of_true (hread.trans hset) (.inr (.inr hfiled))
  · have hread := text_of_unfiled (v := ⟨c, s.updateOverride key (Facet.description.set d)⟩)
      hlocation fun o => State.kind_ne_of_not_filed hfiled (Facet.description.kind_set d)
    rw [hread]
    simp [hlocation, hfiled]

/-! ### Items -/

theorem home_eq (i : EntityId) :
    v.home? i = (v.catalog.items.get? i).map fun d =>
      match v.state.read .placement (.item i) with
      | some p => (p.location?, p.holder?)
      | none => (d.location, d.holder) := by
  rw [← State.get?_bind]
  unfold home? item? override?
  cases v.catalog.items.get? i with
  | none => rfl
  | some d =>
    cases v.state.overrides.get? (.item i) with
    | none => rfl
    | some o =>
      cases o with
      | item p d => cases p <;> rfl
      | _ => rfl

theorem recordedPlacement_setPlacement_iff {i : EntityId} {p : Placement} :
    (View.mk c (s.setPlacement c i p)).recordedPlacement i = p ↔
      c.initialPlacement i = p ∨ s.Filed (.item i) := by
  rw [recordedPlacement_eq, State.setPlacement_eq, ← Option.some_inj, ← Option.or_some,
    ← Option.some_inj (a := c.initialPlacement i)]
  exact State.read_or_authored_iff rfl fun _ => Facet.get_placement_of_ne

theorem placement_putItem_iff {i : EntityId} {p : Placement} (hcarried : p ≠ .carried)
    (hlimbo : p ≠ .limbo) :
    (View.mk c (s.putItem c i p)).placement i = p ↔
      c.initialPlacement i = p ∨ s.Filed (.item i) := by
  have hout : (s.putItem c i p).hasItem i = false := by simp [hasItem_putItem]
  rw [placement_eq_iff hcarried hlimbo, hout]
  exact (and_iff_right rfl).trans recordedPlacement_setPlacement_iff

theorem home_of_placement (hc : c.Accepted) {i : EntityId} (hi : c.contains (.item i) = true)
    {p : Placement} (hcarried : p ≠ .carried) (hlimbo : p ≠ .limbo)
    (h : (View.mk c s).placement i = p) :
    (View.mk c s).home? i = some (p.location?, p.holder?) := by
  obtain ⟨d, hd⟩ := Table.contains_iff_exists.1 hi
  have hrecorded := ((placement_eq_iff hcarried hlimbo).1 h).2
  rw [recordedPlacement_eq] at hrecorded
  rw [home_eq, hd]
  cases hread : s.read .placement (.item i) with
  | some q =>
    rw [hread] at hrecorded
    obtain rfl : q = p := hrecorded
    rfl
  | none =>
    rw [hread] at hrecorded
    obtain rfl : c.initialPlacement i = p := hrecorded
    have hout : i ∉ c.start.inventory := fun hmem =>
      hcarried (Catalog.initialPlacement_eq_carried.2 hmem)
    obtain ⟨hlocation, hholder⟩ := hc.authored_home_of_not_mem hd hout
    exact congrArg some (Prod.ext hlocation hholder)

/-- An item that is put somewhere is read there, or where it was authored to be. -/
theorem placed_putItem_iff (hc : c.Accepted) {i : EntityId} (hi : c.contains (.item i) = true)
    {p : Placement} (hcarried : p ≠ .carried) (hlimbo : p ≠ .limbo) :
    (View.mk c (s.putItem c i p)).placement i = p ∧
        (View.mk c (s.putItem c i p)).home? i = some (p.location?, p.holder?) ↔
      c.initialPlacement i = p ∨ s.Filed (.item i) :=
  (and_iff_left_of_imp (home_of_placement hc hi hcarried hlimbo)).trans
    (placement_putItem_iff hcarried hlimbo)

theorem placement_takeItem {i : EntityId} :
    (View.mk c (s.takeItem c i)).placement i = .carried :=
  placement_of_carried (by simp [hasItem_takeItem])

theorem home_takeItem_iff {i : EntityId} (hi : c.contains (.item i) = true) :
    (View.mk c (s.takeItem c i)).home? i = some (none, none) ↔
      (c.items.get? i).map (fun d => (d.location, d.holder)) = some (none, none) ∨
        s.Filed (.item i) ∧ i ∉ c.start.inventory := by
  obtain ⟨d, hd⟩ := Table.contains_iff_exists.1 hi
  have hfiled : (s.addItem i).Filed (.item i) ↔ s.Filed (.item i) := by
    rw [State.addItem_eq]
    exact Iff.rfl
  unfold State.takeItem
  rw [home_eq, State.setPlacement_eq, hd, ← Catalog.initialPlacement_eq_carried]
  by_cases h : s.Filed (.item i)
  · rw [State.read_set_self (hfiled.2 h) rfl]
    unfold State.differing
    by_cases hcarried : c.initialPlacement i = .carried
    · simp [hcarried]
    · simp [hcarried, h, Placement.location?, Placement.holder?]
  · rw [State.read_set_of_not_filed (mt hfiled.1 h) fun _ => Facet.get_placement_of_ne]
    simp [h]

end View

namespace Effect

/-- When what an effect sets is read back. In a world that names its start it is if the override of
the entity is of its kind. -/
theorem readBack_iff {c : Catalog} (hc : c.Accepted) {s t : State} {e : Effect} {key : EntityKey}
    (hkey : e.subject? = some key) (ht : s.apply c e = .ok t) :
    (e.ReadBack ⟨c, t⟩ ↔ e.Restates c ∨ (key.kind = .location ∨ s.Filed key) ∧
        ∀ i, e = .giveItem i → i ∉ c.start.inventory) ∧
      (c.start.location ≠ "" → s.Filed key → e.ReadBack ⟨c, t⟩) := by
  obtain ⟨hdeclared, hfree, rfl⟩ := State.apply_eq_ok_iff.1 ht
  have hiff : e.ReadBack ⟨c, s.change c e⟩ ↔ e.Restates c ∨
      (key.kind = .location ∨ s.Filed key) ∧ ∀ i, e = .giveItem i → i ∉ c.start.inventory := by
    cases e <;> cases hkey
    case lockExit x b =>
      refine (View.locked_setLocked_iff (hdeclared _ (.head _))).trans ?_
      simp [Restates]
    case hideExit x b =>
      refine (View.hidden_setHidden_iff (hdeclared _ (.head _))).trans ?_
      simp [Restates]
    case moveCharacter p l =>
      refine (View.standing_moveCharacter_iff (hdeclared _ (.head _))).trans ?_
      simp [Restates]
    case describe text =>
      refine (View.text_describe_iff (hdeclared _ (.head _)) ?_).trans ?_
      · simpa [State.obstacle?] using hfree
      · simp [Restates]
    case giveItem i =>
      refine (and_iff_right View.placement_takeItem).trans ?_
      refine (View.home_takeItem_iff (hdeclared _ (.head _))).trans ?_
      simp [Restates]
    case placeItem i l =>
      refine (View.placed_putItem_iff (p := .location l) hc (hdeclared _ (.head _)) (by simp)
        (by simp)).trans ?_
      simp [Restates]
    case handItem i p =>
      refine (View.placed_putItem_iff (p := .holder p) hc (hdeclared _ (.head _)) (by simp)
        (by simp)).trans ?_
      simp [Restates]
    case destroyItem i =>
      refine (View.placed_putItem_iff (p := .destroyed) hc (hdeclared _ (.head _)) (by simp)
        (by simp)).trans ?_
      simp [Restates]
  refine ⟨hiff, fun hstart hfiled => hiff.2 ?_⟩
  by_cases hgiven : ∃ i ∈ c.start.inventory, e = .giveItem i
  · -- What the start carries is authored to lie nowhere, where the start is checked.
    obtain ⟨i, hi, rfl⟩ := hgiven
    obtain ⟨d, hd⟩ : ∃ d, c.items.get? i = some d :=
      Table.contains_iff_exists.1 (hdeclared _ (.head _))
    obtain ⟨hlocation, hholder⟩ := (hc.soundStart hstart).free i hi d hd
    have hnowhere : (c.items.get? i).map (fun d => (d.location, d.holder)) = some (none, none) := by
      rw [hd, Option.map_some, hlocation, hholder]
    exact .inl hnowhere
  · exact .inr ⟨.inr hfiled, fun i he hi => hgiven ⟨i, hi, he⟩⟩

end Effect

/-- In a session that goes on from a save, the lamp whose record is one of an item is put in the hall
and lies there. -/
theorem lamp_put_in_hall :
    let save := Save.capture .zero .epoch wharf lampInHall
    let e := Effect.placeItem "lamp" "hall"
    ∃ t, wharf.Accepted ∧ save.restore wharf = .ok lampInHall ∧
      e.subject? = some (.item "lamp") ∧ lampInHall.apply wharf e = .ok t ∧
      lampInHall.Filed (.item "lamp") ∧ e.ReadBack ⟨wharf, t⟩ := by
  intro save e
  have hrestored : save.restore wharf = .ok lampInHall := by decide +kernel
  have hfiled : lampInHall.Filed (.item "lamp") := by
    intro o ho
    obtain rfl : Override.item (some .carried) (some "Bright.") = o := Option.some.inj ho
    rfl
  obtain ⟨t, ht⟩ : ∃ t, lampInHall.apply wharf e = .ok t := ⟨_, rfl⟩
  have hread := (Effect.readBack_iff wharf_accepted rfl ht).2 (by decide) hfiled
  exact ⟨t, wharf_accepted, hrestored, rfl, ht, hfiled, hread⟩

/-- The lamp whose record is one of a location is put in the hall and lies on the dock. -/
theorem lamp_put_nowhere :
    ¬∀ (c : Catalog) (save : Save) (s t : State) (e : Effect) (key : EntityKey), c.Accepted →
      save.restore c = .ok s → e.subject? = some key → s.apply c e = .ok t →
        e.ReadBack ⟨c, t⟩ := by
  intro h
  have hrestored : (Save.capture .zero .epoch wharf lampMisfiled).restore wharf =
      .ok lampMisfiled := by decide +kernel
  obtain ⟨t, ht, hback⟩ : ∃ t, lampMisfiled.apply wharf (.placeItem "lamp" "hall") = .ok t ∧
      (View.mk wharf t).placement "lamp" = .location "dock" := ⟨_, rfl, by decide +kernel⟩
  obtain ⟨hput, -⟩ := h wharf _ lampMisfiled t (.placeItem "lamp" "hall") _ wharf_accepted
    hrestored rfl ht
  rw [hback] at hput
  exact absurd (Placement.location.inj hput) (by decide)

end Storyworld
