import Storyworld.Proofs.Critical
import Storyworld.Proofs.Whereabouts

/-!
# What lasts

Every effect that a turn applies is one that an author lists, or one that planning makes of the
player's moves (`Catalog.Yields`), and every effect leaves an item where it is or puts it where
`Effect.Puts` says. Two things last through every run for that reason. No author takes a critical
item away, and no move of the player's does, so one that is carried or lies somewhere stays within
the player's world (`critical_stays_in_play`). And nothing brings back what is destroyed
(`destroyed_for_good`).
-/

namespace Storyworld

/-! ### What turns apply -/

/-- The effects that turns apply: those that authors list, and those of the player's own moves. -/
inductive Catalog.Yields (c : Catalog) : Effect → Prop
  | authored {e : Effect} (h : c.Authors e) : Yields c e
  | moved (l : EntityId) : Yields c (.movePlayer l)
  | taken (i : EntityId) : Yields c (.giveItem i)
  | dropped (i l : EntityId) : Yields c (.placeItem i l)

section
variable {c : Catalog} {s t : State} {p : Plan}

theorem View.yields_of_ownEffects {v : View} {i : Intent} {e : Effect} (h : e ∈ v.ownEffects i) :
    v.catalog.Yields e := by
  cases i with
  | move x =>
    obtain ⟨d, -, rfl⟩ := Option.map_eq_some_iff.1 (Option.mem_toList.1 h)
    exact .moved _
  | take target =>
    change e ∈ (if target.kind = .item then [.giveItem target.id] else []) at h
    split at h
    · obtain rfl := List.mem_singleton.1 h
      exact .taken _
    · cases h
  | drop target =>
    change e ∈ (if target.kind = .item then [.placeItem target.id v.state.location] else []) at h
    split at h
    · obtain rfl := List.mem_singleton.1 h
      exact .dropped _ _
    · cases h
  | examine | use | talk | interact => cases h

theorem View.yields_of_plan {v : View} {i : Intent} {e : Effect} (h : e ∈ (v.plan i).effects) :
    v.catalog.Yields e := by
  obtain ⟨-, ⟨-, heffects, -⟩ | ⟨d, hrider, heffects, -⟩⟩ := v.plan_cases i
  · rw [heffects] at h
    exact yields_of_ownEffects h
  · rw [heffects] at h
    rcases List.mem_append.1 h with h | h
    · exact yields_of_ownEffects h
    · exact .authored (.interaction (rides_of_rider? hrider).1 h)

theorem Lands.course {done : Commit} (h : Lands c s p done) :
    ∃ es, Course c s es done.state ∧ ∀ e ∈ es, c.Yields e := by
  obtain ⟨acted, beaten, passed, hl⟩ := h.stages
  refine ⟨_, hl.course, fun e he => ?_⟩
  rcases List.mem_append.1 he with he | he
  · obtain ⟨i, rfl⟩ := h.planned
    exact View.yields_of_plan he
  · obtain ⟨b, hb, he⟩ := List.mem_flatMap.1 he
    obtain ⟨d, hd, heffects⟩ := hl.beats_authored hb
    exact .authored (.beat hd (heffects ▸ he))

/-- What the effects of turns keep, and every change that leaves the scene alone, all runs keep. -/
theorem Reaches.keeps {P : State → Prop} (h : Reaches c s t) (hs : P s)
    (heffect : ∀ e, c.Yields e → ∀ s t, P s → s.apply c e = .ok t → P t)
    (hscene : ∀ s t, P s → Touch c s t → s.SameScene t → P t) : P t := by
  induction h with
  | refl => exact hs
  | @turn m _ l ih =>
    have hcounted : P m.advanceTurn := hscene _ _ ih .counted ⟨rfl, rfl, rfl, rfl, rfl⟩
    cases hl : l.landing? c m with
    | none =>
      rw [(Line.play_of_none hl).1]
      exact hcounted
    | some x =>
      obtain ⟨es, hcourse, hyields⟩ := (Line.lands hl).course
      rw [(Line.play_of_some hl).1]
      exact hcourse.keeps hcounted (fun e he => heffect e (hyields e he)) hscene

end

/-! ### Where effects put items -/

/-- Where an effect puts the item, if it moves it. Only what is carried can be taken away. -/
inductive Effect.Puts (i : EntityId) (inventory : List EntityId) : Effect → Placement → Prop
  | given : Puts i inventory (.giveItem i) .carried
  | removed (h : i ∈ inventory) : Puts i inventory (.removeItem i) .limbo
  | destroyed : Puts i inventory (.destroyItem i) .destroyed
  | placed (l : EntityId) : Puts i inventory (.placeItem i l) (.location l)
  | handed (p : EntityId) : Puts i inventory (.handItem i p) (.holder p)

section
variable {c : Catalog} {s t : State} {e : Effect} {i : EntityId}

theorem Effect.Puts.update {item : EntityId} {inventory : List EntityId} {p : Placement}
    (h : e.Puts item inventory p) (placement : EntityId → Placement) (i : EntityId) :
    Function.update placement item p i = placement i ∨
      e.Puts i inventory (Function.update placement item p i) := by
  by_cases hi : i = item
  · subst hi
    rw [Function.update_self]
    exact .inr h
  · exact .inl (Function.update_of_ne hi ..)

theorem World.placement_after (w : World) (e : Effect) (i : EntityId) :
    (w.after c e).placement i = w.placement i ∨
      e.Puts i w.inventory ((w.after c e).placement i) := by
  cases e with
  | giveItem item => exact Effect.Puts.given.update w.placement i
  | destroyItem item => exact Effect.Puts.destroyed.update w.placement i
  | placeItem item l => exact (Effect.Puts.placed l).update w.placement i
  | handItem item p => exact (Effect.Puts.handed p).update w.placement i
  | removeItem item =>
    by_cases hcarried : item ∈ w.inventory
    · have hafter : w.after c (.removeItem item) = w.put item .limbo := if_pos hcarried
      rw [hafter]
      exact (Effect.Puts.removed hcarried).update w.placement i
    · have hafter : w.after c (.removeItem item) = w := if_neg hcarried
      exact .inl (by rw [hafter])
  | advanceAct act =>
    refine .inl ?_
    show (w.advance c act).placement i = w.placement i
    unfold World.advance
    split
    · split <;> rfl
    · rfl
  | _ => exact .inl rfl

/-- An effect that is applied leaves an item where it is, or is one that puts it where it is then. -/
theorem State.Consistent.placement_apply (hs : s.Consistent c) (h : s.apply c e = .ok t)
    (i : EntityId) :
    (View.mk c t).placement i = (View.mk c s).placement i ∨
      e.Puts i s.inventory ((View.mk c t).placement i) := by
  obtain ⟨hdeclared, hobstacle, rfl⟩ := apply_eq_ok_iff.1 h
  have hafter := World.of_change hs.kinds hdeclared (World.allows_iff.2 hobstacle)
  have hplacement : (View.mk c (s.change c e)).placement i =
      ((World.of c s).after c e).placement i := congrArg (fun w => w.placement i) hafter
  rw [hplacement]
  exact World.placement_after (World.of c s) e i

theorem State.SameScene.placement (h : s.SameScene t) (i : EntityId) :
    (View.mk c t).placement i = (View.mk c s).placement i := by
  unfold View.placement View.recordedPlacement View.override? hasItem
  dsimp only
  rw [h.inventory, h.overrides]

/-- What is said of where an item is, and is kept by the effects of turns, all runs keep. -/
theorem Reaches.keeps_placement {P : Placement → Prop} (h : Reaches c s t) (hs : s.Consistent c)
    (hp : P ((View.mk c s).placement i))
    (heffect : ∀ e, c.Yields e → ∀ s t, s.Consistent c → s.apply c e = .ok t →
      P ((View.mk c s).placement i) → P ((View.mk c t).placement i)) :
    P ((View.mk c t).placement i) := by
  refine (h.keeps (P := fun s => s.Consistent c ∧ P ((View.mk c s).placement i)) ⟨hs, hp⟩ ?_ ?_).2
  · rintro e he s t ⟨hs, hp⟩ happly
    exact ⟨State.Consistent.kept s t hs (.applied e happly), heffect e he s t hs happly hp⟩
  · rintro s t ⟨hs, hp⟩ htouch hscene
    refine ⟨State.Consistent.kept s t hs htouch, ?_⟩
    rwa [hscene.placement]

end

/-! ### Critical items -/

/-- With the player or lying somewhere, so neither held by a character nor out of play. -/
def Placement.Loose (p : Placement) : Prop := p = .carried ∨ ∃ l, p = .location l

section
variable {c : Catalog} {s t : State} {e : Effect} {i : EntityId}

theorem Catalog.Yields.parts?_ne (h : c.Yields e) (hc : c.Accepted)
    (hcrit : c.isCritical i = true) : e.parts? ≠ some i := by
  cases h with
  | authored h => exact Catalog.parts?_ne_of_safe (hc.effect_safe h) hcrit
  | _ => simp [Effect.parts?, Effect.removes?]

/-- An effect that does not take the item away leaves it where it is, or loose. -/
theorem State.Consistent.loose_apply (hs : s.Consistent c) (h : s.apply c e = .ok t)
    (hparts : e.parts? ≠ some i) :
    (View.mk c t).placement i = (View.mk c s).placement i ∨
      ((View.mk c t).placement i).Loose := by
  refine (hs.placement_apply h i).imp_right fun hputs => ?_
  generalize (View.mk c t).placement i = p at hputs
  cases hputs with
  | given => exact .inl rfl
  | placed l => exact .inr ⟨l, rfl⟩
  | removed | destroyed | handed => exact absurd rfl hparts

/-- What is said of where a critical item is, and holds wherever it is loose, holds through all
runs. -/
theorem Reaches.keeps_critical (hc : c.Accepted) (h : Reaches c s t) (hcrit : c.isCritical i = true)
    {P : Placement → Prop} (hloose : ∀ p : Placement, p.Loose → P p) (hs : s.Consistent c)
    (hp : P ((View.mk c s).placement i)) : P ((View.mk c t).placement i) := by
  refine h.keeps_placement hs hp fun e he s t hs happly hp => ?_
  rcases hs.loose_apply happly (he.parts?_ne hc hcrit) with hsame | hput
  · rwa [hsame]
  · exact hloose _ hput

theorem Catalog.initialPlacement_ne_destroyed (c : Catalog) (i : EntityId) :
    c.initialPlacement i ≠ .destroyed := by
  unfold initialPlacement
  split
  · simp
  · split
    · simp
    · split <;> simp

end

/-- In a world that loads, no critical item is ever destroyed, and one that the player carries or
that lies somewhere is carried or lies somewhere from then on, in whichever way the session goes. -/
theorem critical_stays_in_play {c : Catalog} (hc : c.Accepted) {i : EntityId}
    (hcrit : c.isCritical i = true) {s : State} (hs : Reachable c s) :
    (View.mk c s).placement i ≠ .destroyed ∧
      (((View.mk c s).placement i).Loose → ∀ t, Reaches c s t →
        ((View.mk c t).placement i).Loose) := by
  constructor
  · refine hs.keeps_critical hc hcrit (P := (· ≠ .destroyed)) ?_ .initial ?_
    · rintro p (rfl | ⟨l, rfl⟩) <;> simp
    · rw [(State.Tallies.initial (c := c)).placement_eq]
      exact c.initialPlacement_ne_destroyed i
  · intro hloose t ht
    exact ht.keeps_critical hc hcrit (fun _ => id) (.reachable hs) hloose

/-- The tremor lays the critical crown down in the vault, where it lies from then on. -/
theorem crown_loose_in_vault :
    let s := State.initial vault
    let t := (Line.play vault { input := "look" } s).state
    vault.Accepted ∧ vault.isCritical "crown" = true ∧ Reachable vault s ∧
      ((View.mk vault s).placement "crown").Loose ∧ Reaches vault s t ∧
      (View.mk vault t).placement "crown" = .location "vault" ∧
      ((View.mk vault t).placement "crown").Loose := by
  intro s t
  have hcrit : vault.isCritical "crown" = true := by decide
  have hloose : ((View.mk vault s).placement "crown").Loose := .inl (by decide)
  have ht : Reaches vault s t := .turn .refl _
  have hlaid : (View.mk vault t).placement "crown" = .location "vault" := by decide +kernel
  exact ⟨vault_accepted, hcrit, .refl, hloose, ht, hlaid,
    (critical_stays_in_play vault_accepted hcrit .refl).2 hloose t ht⟩

/-! ### Destroyed items -/

section
variable {c : Catalog} {s t : State} {e : Effect} {i : EntityId}

/-- No effect can be applied that would bring back what is destroyed. -/
theorem State.Consistent.destroyed_apply (hs : s.Consistent c) (h : s.apply c e = .ok t)
    (hgone : (View.mk c s).placement i = .destroyed) :
    (View.mk c t).placement i = .destroyed := by
  rcases hs.placement_apply h i with hsame | hputs
  · rw [hsame, hgone]
  · have hobstacle := (apply_eq_ok_iff.1 h).2.1
    generalize (View.mk c t).placement i = p at hputs
    cases hputs with
    | destroyed => rfl
    | removed hi =>
      -- What is in the inventory is carried, whatever is on record.
      rw [View.placement_of_carried (List.contains_iff_mem.2 hi)] at hgone
      cases hgone
    | given | placed | handed => simp [obstacle?, hgone] at hobstacle

theorem View.id_of_item? {v : View} {d : Item} (h : v.item? i = some d) : d.id = i := by
  obtain ⟨authored, hauthored, rfl⟩ := Option.map_eq_some_iff.1 h
  rw [← Table.id_of_get? hauthored]
  split
  · rename_i p _ _
    cases p <;> rfl
  · rfl

theorem View.placement_of_mem_itemsAt {v : View} {l : EntityId} {d : Item}
    (h : d ∈ v.itemsAt l) : v.placement d.id = .location l := by
  obtain ⟨authored, hauthored, hd⟩ := List.mem_filterMap.1 h
  rw [id_of_item? hd]
  exact beq_iff_eq.1 (List.mem_filter.1 hauthored).2

end

/-- What is destroyed after some turn is destroyed after every later one, and then it is neither in
the inventory nor among the items of any location. -/
theorem destroyed_for_good {c : Catalog} {s t : State} {i : EntityId} (hs : Reachable c s)
    (hgone : (View.mk c s).placement i = .destroyed) (ht : Reaches c s t) :
    (View.mk c t).placement i = .destroyed ∧ i ∉ t.inventory ∧
      ∀ l, ∀ d ∈ (View.mk c t).itemsAt l, d.id ≠ i := by
  have hlast : (View.mk c t).placement i = .destroyed :=
    ht.keeps_placement (P := (· = .destroyed)) (.reachable hs) hgone
      fun _ _ _ _ hs happly hgone => hs.destroyed_apply happly hgone
  refine ⟨hlast, fun hi => ?_, ?_⟩
  · have hcarried := View.placement_of_carried (v := View.mk c t) (List.contains_iff_mem.2 hi)
    cases hcarried.symm.trans hlast
  · rintro l d hd rfl
    cases (View.placement_of_mem_itemsAt hd).symm.trans hlast

/-- A hearth in which the letter can be burnt, and can be wanted back. -/
def hearthDoc : WorldDocument where
  world := some { title := "Hearth" }
  start := some { location := "hearth", inventory := ["letter"] }
  locations := [{ id := "hearth", name := "Hearth" }]
  items := [{ id := "letter", name := "letter" }]
  interactions := [
    { id := "burn", kind := .interact, triggers := ["burn"], effects := [.destroyItem "letter"] },
    { id := "rescue", kind := .interact, triggers := ["rescue"], effects := [.giveItem "letter"] }]
  acts := [{ id := "winter", locations := ["hearth"] }]

def hearth : Catalog := .draft hearthDoc

/-- The letter is burnt, and remains so when it is wanted back. -/
theorem letter_burnt_for_good :
    let s := (Line.play hearth { input := "burn" } (.initial hearth)).state
    let t := (Line.play hearth { input := "rescue" } s).state
    hearth.Accepted ∧ "letter" ∈ (State.initial hearth).inventory ∧
      Reachable hearth s ∧ (View.mk hearth s).placement "letter" = .destroyed ∧
      Reaches hearth s t ∧ (View.mk hearth t).placement "letter" = .destroyed ∧
      "letter" ∉ t.inventory := by
  intro s t
  have hs : Reachable hearth s := .turn .refl _
  have hgone : (View.mk hearth s).placement "letter" = .destroyed := by decide +kernel
  have ht : Reaches hearth s t := .turn .refl _
  obtain ⟨hlast, hmissing, -⟩ := destroyed_for_good hs hgone ht
  exact ⟨⟨hearthDoc, Catalog.ofDocument_eq_ok_iff.2 ⟨by decide, rfl⟩⟩, by decide, hs, hgone, ht,
    hlast, hmissing⟩

end Storyworld
