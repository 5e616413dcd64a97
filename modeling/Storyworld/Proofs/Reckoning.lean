import Storyworld.Proofs.Approval
import Storyworld.Proofs.Coverage

/-!
# What an outlook reckons with

A settled outlook covers what an approved plan can do from any state that is within it: the way that
is walked, the item that is picked up, the interaction that runs. Some of what an outlook asks of an
interaction nobody asks of it when it runs, and some of what comes about is not taken in; `Reckons`
lists these gaps, and says of a landing that it goes through none of them.
-/

namespace Storyworld
namespace Outlook

/-- An outlook that exploring may end with. -/
structure Settled (v : View) (o : Outlook) : Prop where
  closed : Closed v o
  sound : Sound v o
  learns : Learns v (initial v) o

theorem settled_explore (v : View) : Settled v (explore v) :=
  ⟨explore_closed v, explore_sound v, learns_explore v⟩

end Outlook

/-! ### Look-ups -/

namespace View

variable {v : View}

theorem mem_foldl_reach {sets : Act → List EntityId × List EntityId} {as : List Act}
    {reach : SortedSet EntityId} {l : EntityId}
    (h : l ∈ as.foldl (fun reach a =>
      let base := if a.mode = .replace then .empty else reach
      (base.insertAll (sets a).1).eraseAll (sets a).2) reach) :
    l ∈ reach ∨ ∃ a ∈ as, l ∈ (sets a).1 := by
  induction as generalizing reach with
  | nil => exact .inl h
  | cons a as ih =>
    rcases ih h with hl | ⟨b, hb, hl⟩
    · dsimp only at hl
      rw [SortedSet.mem_eraseAll, SortedSet.mem_insertAll] at hl
      rcases hl.1 with hl | hl
      · split at hl
        · exact absurd hl (SortedSet.not_mem_empty l)
        · exact .inl hl
      · exact .inr ⟨a, .head _, hl⟩
    · exact .inr ⟨b, .tail _ hb, hl⟩

theorem character?_eq_some {p : EntityId} {e : Character} (h : v.character? p = some e) :
    e.id = p := by
  unfold character? at h
  obtain ⟨d, hd, rfl⟩ := Option.map_eq_some_iff.1 h
  refine Eq.trans ?_ (Table.id_of_get? hd)
  dsimp only
  split <;> rfl

theorem hasItem_of_carried {i : EntityId} (h : v.placement i = .carried) :
    v.state.hasItem i = true := by
  unfold placement at h
  split at h
  · assumption
  · cases hr : v.recordedPlacement i <;> rw [hr] at h <;> cases h

theorem mem_charactersAt_iff {l p : EntityId} :
    (∃ d ∈ v.charactersAt l, d.id = p) ↔
      p ∈ v.reachableCharacters ∧ v.standing? p = some l := by
  constructor
  · rintro ⟨d, hd, rfl⟩
    obtain ⟨hmem, hl⟩ := List.mem_filter.1 hd
    obtain ⟨authored, hauthored, hd⟩ := List.mem_filterMap.1 hmem
    rw [character?_eq_some hd]
    refine ⟨SortedSet.mem_iff_contains.2 (List.mem_filter.1 hauthored).2, ?_⟩
    unfold standing?
    rw [hd]
    simpa using hl
  · rintro ⟨hreach, hl⟩
    obtain ⟨d, hd, hstands⟩ := Option.bind_eq_some_iff.1 hl
    have hdeclared : ∃ authored, v.catalog.characters.get? p = some authored := by
      unfold character? at hd
      obtain ⟨authored, hget, -⟩ := Option.map_eq_some_iff.1 hd
      exact ⟨authored, hget⟩
    obtain ⟨authored, hget⟩ := hdeclared
    obtain ⟨hmem, rfl⟩ := Table.get?_eq_some_iff.1 hget
    have hkept : authored ∈ v.catalog.characters.toList.filter fun d =>
        v.reachableCharacters.contains d.id := List.mem_filter.2 ⟨hmem, hreach⟩
    refine ⟨d, List.mem_filter.2 ⟨List.mem_filterMap.2 ⟨authored, hkept, hd⟩, ?_⟩,
      character?_eq_some hd⟩
    simpa using hstands

theorem standing_of_charactersAt {l p : EntityId} (h : (v.charactersAt l).any (·.id == p) = true) :
    v.standing? p = some l := by
  obtain ⟨d, hd, hid⟩ := List.any_eq_true.1 h
  exact (mem_charactersAt_iff.1 ⟨d, hd, by simpa using hid⟩).2

end View

theorem Table.getElem?_of_get? {α : Type} [Definition α] {t : Table α} {id : EntityId} {d : α}
    {i : Nat} (hd : t.get? id = some d) (hi : t.position? id = some i) : t.toList[i]? = some d := by
  obtain ⟨hlt, hid, -⟩ := List.findIdx?_eq_some_iff_getElem.1 hi
  obtain ⟨hmem, hid'⟩ := Table.get?_eq_some_iff.1 hd
  rw [List.getElem?_eq_getElem hlt]
  refine congrArg some (Table.eq_of_id_eq t.nodup (List.getElem_mem hlt) hmem ?_)
  rw [hid']
  simpa using hid

/-! ### What is foreseen -/

namespace State.Within

variable {v : View} {o : Outlook} {t : State} (h : t.Within v o) (hc : v.catalog.Accepted)
  (ho : o.Settled v)
include h hc ho

omit hc in
theorem bound {l : EntityId} (hl : l ∈ (View.mk v.catalog t).reachableLocations) :
    o.knows (.bound l) = true := by
  obtain ⟨later, hlater, hpast⟩ := h.world.reached
  have hacts : (View.mk v.catalog t).reachedActs =
      v.reachedActs ++ later.filterMap v.catalog.acts.get? := by
    show (World.of v.catalog t).reachedActs.filterMap v.catalog.acts.get? = _
    rw [hlater, List.filterMap_append]
    rfl
  unfold View.reachableLocations View.reachableBy at hl
  rw [hacts, List.foldl_append] at hl
  rcases View.mem_foldl_reach hl with hl | ⟨a, ha, hl⟩
  · refine ho.learns.knows (f := .bound l) (List.contains_iff_mem.2 ?_)
    exact SortedSet.mem_toList.2 hl
  · obtain ⟨id, hid, ha⟩ := List.mem_filterMap.1 ha
    obtain ⟨i, hi, hlt, hle⟩ := hpast id hid
    exact ho.sound.opened i a (Table.getElem?_of_get? ha hi) hlt hle l hl

omit hc ho in
theorem shown {x : EntityId} {e e₀ : Exit} (he : (View.mk v.catalog t).exit? x = some e)
    (he₀ : v.exit? x = some e₀) (hseen : e.hidden = false) :
    (!e₀.hidden || o.shown.contains x) = true := by
  have hnow : (World.of v.catalog t).hidden x = some false := by
    show ((View.mk v.catalog t).exit? x).map (·.hidden) = _
    rw [he, Option.map_some, hseen]
  rcases h.world.revealed x hnow with hfirst | hlater
  · have hfirst : (v.exit? x).map (·.hidden) = some false := hfirst
    rw [he₀] at hfirst
    simp [Option.some.inj hfirst]
  · exact Bool.or_eq_true_iff.2 (.inr hlater)

omit hc ho in
theorem opened {x : EntityId} {e e₀ : Exit} (he : (View.mk v.catalog t).exit? x = some e)
    (he₀ : v.exit? x = some e₀) (hfree : e.locked = false) :
    (!e₀.locked || o.opened.contains x) = true := by
  have hnow : (World.of v.catalog t).locked x = some false := by
    show ((View.mk v.catalog t).exit? x).map (·.locked) = _
    rw [he, Option.map_some, hfree]
  rcases h.world.unlocked x hnow with hfirst | hlater
  · have hfirst : (v.exit? x).map (·.locked) = some false := hfirst
    rw [he₀] at hfirst
    simp [Option.some.inj hfirst]
  · exact Bool.or_eq_true_iff.2 (.inr hlater)

theorem move {x : EntityId} (hway : (View.mk v.catalog t).checkWay x = none) {d : Exit}
    (hd : v.catalog.exits.get? x = some d) : o.knows (.visit d.destination) = true := by
  obtain ⟨e, he, horigin, hvisible, hreach, hopen⟩ := View.exit_of_checkWay hway
  obtain ⟨d', hd', -, heorigin, hedestination, hevisible, heopen⟩ := View.exit?_eq_some he
  obtain rfl : d = d' := Option.some.inj (hd.symm.trans hd')
  obtain ⟨hmem, rfl⟩ := Table.get?_eq_some_iff.1 hd
  obtain ⟨e₀, he₀⟩ : ∃ e₀, v.exit? (Definition.id d) = some e₀ := by
    unfold View.exit?
    rw [hd]
    exact ⟨_, rfl⟩
  obtain ⟨d', hd', hid, -, -, hvisible₀, hopen₀⟩ := View.exit?_eq_some he₀
  obtain rfl : d = d' := Option.some.inj (hd.symm.trans hd')
  obtain ⟨hshown, hvisible⟩ := Bool.and_eq_true_iff.1 hvisible
  obtain ⟨hunlocked, hopen⟩ := Bool.and_eq_true_iff.1 hopen
  refine ho.closed.visit hmem ?_ (hedestination ▸ h.bound ho hreach)
    ((Option.any_eq_true _ _).2 ⟨e₀, he₀, ?_⟩)
  · rw [← heorigin, horigin]
    exact h.world.here
  · have hreveal : (!e₀.hidden || o.shown.contains e₀.id) = true := by
      rw [hid]
      exact h.shown he he₀ (by simpa using hshown)
    have hunlock : (!e₀.locked || o.opened.contains e₀.id) = true := by
      rw [hid]
      exact h.opened he he₀ (by simpa using hunlocked)
    unfold Outlook.mayPass
    rw [hreveal, hunlock, hvisible₀, hopen₀, ← hevisible, ← heopen, h.may? hc hvisible,
      h.may? hc hopen]
    rfl

omit hc in
theorem gain {i : EntityId} (hlies : (View.mk v.catalog t).placement i = .location t.location)
    (hportable : v.catalog.isPortable i = true) : o.knows (.gain i) = true := by
  rcases h.world.lying i _ hlies with hfirst | hplace | ⟨hgain, -⟩
  · obtain ⟨d, hd, hfree⟩ := (Option.any_eq_true _ _).1 hportable
    obtain ⟨hmem, rfl⟩ := Table.get?_eq_some_iff.1 hd
    refine ho.closed.gain_lying hmem hfree ?_
    unfold Outlook.liesVisitable
    show (v.placement (Definition.id d)).location?.any _ = true
    rw [hfirst]
    exact h.world.here
  · exact ho.closed.gain_placed hplace h.world.here hportable
  · exact hgain

omit hc in
/-- An item that lies where the player is, is reckoned to, unless it is a fixture that was put
there. -/
theorem reachable_item {i : EntityId}
    (hlies : (View.mk v.catalog t).placement i = .location t.location)
    (hfixture : v.catalog.isPortable i = true ∨ ∀ l, o.knows (.visit l) = true →
      o.knows (.place i l) = false) :
    o.obtainable.contains i = true ∨ o.liesVisitable v i = true := by
  rcases hfixture with hportable | hfixture
  · exact .inl (h.gain ho hlies hportable)
  · rcases h.world.lying i _ hlies with hfirst | hplace | ⟨hgain, -⟩
    · refine .inr ?_
      unfold Outlook.liesVisitable
      rw [hfirst]
      exact h.world.here
    · have hnot := hfixture t.location h.world.here
      rw [hplace] at hnot
      cases hnot
    · exact .inl hgain

omit hc in
theorem take {key : EntityKey} (hlies : (View.mk v.catalog t).checkOwnership (.take key) = none)
    (hdeclared : v.catalog.items.contains key.id = true) : o.knows (.gain key.id) = true := by
  obtain ⟨hhere, hportable⟩ := View.lies_of_checkOwnership hlies
  obtain ⟨d, hd⟩ := Table.contains_iff_exists.1 hdeclared
  exact h.gain ho hhere ((Option.any_eq_true _ _).2 ⟨d, hd, hportable d hd⟩)

omit hc in
/-- What is present is reckoned to be within reach, unless it is a fixture that was put there. -/
theorem present {key : EntityKey} (hpresent : (View.mk v.catalog t).isPresent key = true)
    (hfixture : key.kind = .item → v.catalog.isPortable key.id = true ∨
      ∀ l, o.knows (.visit l) = true → o.knows (.place key.id l) = false) :
    o.reachableTarget v key = true := by
  obtain ⟨kind, id⟩ := key
  cases kind with
  | location =>
    have hid : id = t.location := by simpa [View.isPresent] using hpresent
    rw [hid]
    exact h.world.here
  | item =>
    refine Bool.or_eq_true_iff.2 ?_
    unfold View.isPresent at hpresent
    dsimp only at hpresent
    split at hpresent
    · rename_i hcarried
      exact .inl (h.world.carried id (List.contains_iff_mem.1 (View.hasItem_of_carried hcarried)))
    · rename_i l hl
      have hl' : l = t.location := by simpa using hpresent
      exact h.reachable_item ho (hl' ▸ hl) (hfixture rfl)
    · cases hpresent
  | character =>
    refine Bool.or_eq_true_iff.2 ?_
    -- Who is here was here at first, or may move to where the player may come.
    have hstands := View.standing_of_charactersAt hpresent
    rcases h.world.standing id _ hstands with hfirst | hmove
    · refine .inl ?_
      show (v.standing? id).any o.visitable.contains = true
      rw [hfirst]
      exact h.world.here
    · refine .inr (List.any_eq_true.2 ⟨(id, t.location), List.contains_iff_mem.1 hmove, ?_⟩)
      have hhere : o.visitable.contains t.location = true := h.world.here
      dsimp only
      rw [hhere]
      simp
  | exit =>
    obtain ⟨e, he, hhere⟩ := (Option.any_eq_true _ _).1 hpresent
    obtain ⟨d, hd, -, horigin, -⟩ := View.exit?_eq_some he
    refine (Option.any_eq_true _ _).2 ⟨d, hd, ?_⟩
    have hhere := (Bool.and_eq_true_iff.1 hhere).1
    have horigin' : d.origin = t.location := horigin.symm.trans (by simpa using hhere)
    rw [horigin']
    exact h.world.here
  | _ => rfl

end State.Within

/-! ### Landings -/

/-- The item that an intent asks the player to have at hand. -/
def Intent.item? : Intent → Option EntityId
  | .take key | .use key _ => some key.id
  | _ => none

namespace Outlook

/-- The outlook reckons with an interaction that goes with an intent. It asks for the item and the
target of every interaction, where the turn asks for what the intent names; and it does not see the
fixtures that effects put somewhere. -/
structure ReckonsWith (v : View) (o : Outlook) (i : Intent) (d : Interaction) : Prop where
  item : ∀ x, d.item = some x → d.kind ≠ .interact → i.item? ≠ some x → o.itemReady v d x = true
  target : ∀ key key', i = .take key → d.target = some key' → o.reachableTarget v key' = true
  fixture : ∀ x, i.item? = some x ∨ d.target = some (.item x) →
    v.catalog.isPortable x = true ∨ ∀ l, o.knows (.visit l) = true → o.knows (.place x l) = false

/-- The outlook reckons with a landing: with its interaction, with the beats that fire once more,
and with the gate beat of the act that is left. -/
structure Reckons (v : View) (o : Outlook) (p : Plan) (done : Commit) : Prop where
  interaction : ∀ d, p.interaction.bind v.catalog.interactions.get? = some d →
    o.ReckonsWith v p.intent d
  again : ∀ b ∈ done.beats, b.id ∈ v.state.firedBeats → ∀ e ∈ b.effects, o.Foresees v e
  gate : ∀ b, done.transition.bind (·.gateBeat) = some b → o.knows (.beat b.id) = true

end Outlook

namespace State.Within

variable {v : View} {o : Outlook} {t t' : State} {p : Plan}

theorem itemReady (h : t.Within v o) (ho : o.Settled v) (hp : (View.mk v.catalog t).Approves p)
    {i : Intent} (hi : p.intent = i) {d : Interaction} (hrides : Rides i d) {x : EntityId}
    (hx : i.item? = some x)
    (hdeclared : ∀ key, i = .take key → v.catalog.items.contains key.id = true)
    (hfixture : v.catalog.isPortable x = true ∨
      ∀ l, o.knows (.visit l) = true → o.knows (.place x l) = false) :
    o.itemReady v d x = true := by
  have hown := hp.ownership
  rw [hi] at hown
  cases hrides with
  | @take _ key kind item =>
    obtain rfl : key.id = x := Option.some.inj hx
    exact Bool.or_eq_true_iff.2 (.inl (h.take ho hown (hdeclared key rfl)))
  | @use _ key on kind item target =>
    obtain rfl : key.id = x := Option.some.inj hx
    refine Bool.or_eq_true_iff.2 ?_
    rcases View.atHand_of_checkOwnership hown with hcarried | ⟨-, hlies⟩
    · exact .inl (h.world.carried _ hcarried)
    · refine (h.reachable_item ho hlies hfixture).imp id fun hvisitable => ?_
      rw [kind, hvisitable]
      rfl
  | _ => cases hx

/-- The target of an interaction of an approved plan is reckoned to be within reach. -/
theorem targetReady (h : t.Within v o) (ho : o.Settled v)
    (hp : (View.mk v.catalog t).Approves p) {i : Intent} (hi : p.intent = i) {d : Interaction}
    (hrides : Rides i d) (hd : p.interaction.bind v.catalog.interactions.get? = some d)
    (hreckons : o.ReckonsWith v i d) {key : EntityKey} (hkey : d.target = some key) :
    o.reachableTarget v key = true := by
  have hpresent : (View.mk v.catalog t).isPresent key = true →
      o.reachableTarget v key = true := fun hpresent =>
    h.present ho hpresent fun hitem =>
      hreckons.fixture key.id (.inr (hkey.trans (congrArg some (by cases key; cases hitem; rfl))))
  have hchecked := hp.target
  have hcheck := hp.interaction hd
  rw [hi] at hchecked hcheck
  cases hrides with
  | examine target | talk target =>
    obtain rfl := Option.some.inj (hkey.symm.trans target)
    exact hpresent (View.present_of_checkPresent hchecked)
  | take => exact hreckons.target _ key rfl hkey
  | use _ _ target =>
    rw [hkey] at target
    subst target
    exact hpresent (View.present_of_checkPresent hchecked)
  | interact => exact hpresent (View.present_of_checkInteraction hcheck hkey)

/-- An interaction of an approved plan that the outlook reckons with may run. -/
theorem mayRun (h : t.Within v o) (hc : v.catalog.Accepted) (ho : o.Settled v)
    (hp : (View.mk v.catalog t).Approves p) {i : Intent} (hi : p.intent = i) {d : Interaction}
    (hrides : Rides i d) (hd : p.interaction.bind v.catalog.interactions.get? = some d)
    (hdeclared : ∀ key, i = .take key → v.catalog.items.contains key.id = true)
    (hreckons : o.ReckonsWith v i d) : o.mayRun v d = true := by
  have hready := View.ready_of_checkInteraction (hp.interaction hd)
  have hlocation : d.location.all o.visitable.contains = true := by
    cases hl : d.location with
    | none => rfl
    | some l =>
      have hoffers := hready.1
      unfold View.offers at hoffers
      rw [hl] at hoffers
      have hl : l = t.location := by simpa using hoffers
      rw [hl]
      exact h.world.here
  have hitem : (d.kind == .interact || d.item.all (o.itemReady v d)) = true := by
    cases hx : d.item with
    | none => exact Bool.or_true _
    | some x =>
      by_cases hkind : d.kind = .interact
      · rw [hkind]
        rfl
      · refine Bool.or_eq_true_iff.2 (.inr ?_)
        by_cases hasks : i.item? = some x
        · exact h.itemReady ho hp hi hrides hasks hdeclared (hreckons.fixture x (.inl hasks))
        · exact hreckons.item x hx hkind hasks
  have htarget : d.target.all (o.reachableTarget v) = true := by
    cases hkey : d.target with
    | none => rfl
    | some key => exact h.targetReady ho hp hi hrides hd hreckons hkey
  unfold Outlook.mayRun
  rw [hlocation, h.may? hc hready.2.1, hitem, htarget]
  rfl

end State.Within
end Storyworld
