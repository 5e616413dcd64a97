import Storyworld.Proofs.Atomicity
import Storyworld.Proofs.References

/-!
# What can go wrong in a turn

Two of the three obstacles that effects can meet are out of the question once a world has loaded.
What authored effects name is declared, and they describe only what has a description
(`Effect.Sound`); the same goes for what an approved intent does by itself, because the state refers
to nothing undeclared. What is left is an item that is destroyed and that an effect brings
somewhere. `Meets` says which effects a landing comes to and in which states, and it fails exactly
where it meets such an effect (`fails_exactly_at_destroyed`).
-/

namespace Storyworld

/-- The item that an effect brings somewhere, which it can do only if the item is not destroyed. -/
def Effect.brings? : Effect → Option EntityId
  | giveItem item | placeItem item _ | handItem item _ => some item
  | _ => none

/-- Landing a plan comes to an effect in a working state, everything before having gone well. -/
inductive Meets (c : Catalog) (s : State) (p : Plan) (m : State) (e : Effect) : Prop
  /-- To an effect of the plan. -/
  | act (k : Nat) (hm : s.applyAll c (p.effects.take k) = .ok m) (he : p.effects[k]? = some e)
  /-- To an effect of a due beat; `before` is what the beats before it leave. -/
  | beat {acted before : State} {b : Beat} (k j : Nat)
      (hact : s.applyAll c p.effects = .ok acted)
      (hb : (View.mk c (acted.markRun c p.interaction)).dueBeats[k]? = some b)
      (hbefore : (acted.markRun c p.interaction).fireAll c
        ((View.mk c (acted.markRun c p.interaction)).dueBeats.take k) = .ok before)
      (hm : before.applyAll c (b.effects.take j) = .ok m) (he : b.effects[j]? = some e)
  /-- To an effect of the gate beat. -/
  | gate {acted beaten : State} {fired : List FiredBeat} {current next : Act} {b : Beat} (k : Nat)
      (hact : s.applyAll c p.effects = .ok acted)
      (hbeat : (acted.markRun c p.interaction).fireDue c = .ok (beaten, fired))
      (hgate : (View.mk c (beaten.recordSpokes c)).openGate? = some (current, next))
      (hb : (View.mk c (beaten.recordSpokes c)).pendingGateBeat? current = some b)
      (hm : (beaten.recordSpokes c).applyAll c (b.effects.take k) = .ok m)
      (he : b.effects[k]? = some e)

/-- Landing a plan comes to an effect that brings an item somewhere, when the item is destroyed. -/
def FindsDestroyed (c : Catalog) (s : State) (p : Plan) (bad : Inconsistency) : Prop :=
  ∃ m e item, Meets c s p m e ∧ e.brings? = some item ∧
    (View.mk c m).placement item = .destroyed ∧ bad = ⟨e, .destroyedItem item⟩

section
variable {c : Catalog} {s m : State} {p : Plan} {e : Effect} {bad : Inconsistency}

/-- A landing fails at an effect that it meets and that cannot be applied. -/
theorem fails_iff_meets :
    Fails c s p bad ↔ ∃ m e, Meets c s p m e ∧ m.apply c e = .error bad := by
  constructor
  · rintro (⟨k, m, e, hm, he, hstop⟩ | ⟨k, j, hact, hb, hbefore, m, e, hm, he, hstop⟩ |
      ⟨k, hact, hbeat, hgate, hb, m, e, hm, he, hstop⟩)
    · exact ⟨m, e, .act k hm he, hstop⟩
    · exact ⟨m, e, .beat k j hact hb hbefore hm he, hstop⟩
    · exact ⟨m, e, .gate k hact hbeat hgate hb hm he, hstop⟩
  · rintro ⟨m, e, ⟨k, hm, he⟩ | ⟨k, j, hact, hb, hbefore, hm, he⟩ |
      ⟨k, hact, hbeat, hgate, hb, hm, he⟩, hstop⟩
    · exact .act k ⟨m, e, hm, he, hstop⟩
    · exact .beat k j hact hb hbefore ⟨m, e, hm, he, hstop⟩
    · exact .gate k hact hbeat hgate hb ⟨m, e, hm, he, hstop⟩

theorem Meets.effect (h : Meets c s p m e) :
    e ∈ p.effects ∨ ∃ b ∈ c.beats.toList, e ∈ b.effects := by
  cases h with
  | act k hm he => exact .inl (List.mem_of_getElem? he)
  | beat k j hact hb hbefore hm he =>
    have hdue := of_mem_dueBeats (List.mem_of_getElem? hb)
    exact .inr ⟨_, hdue.1, List.mem_of_getElem? he⟩
  | gate k hact hbeat hgate hb hm he =>
    have hpending := of_pendingGateBeat? hb
    exact .inr ⟨_, hpending.2.1, List.mem_of_getElem? he⟩

/-! ### Sound effects -/

/-- Nothing but a destroyed item is in the way of a sound effect. -/
theorem Effect.Sound.apply_eq_error_iff (h : e.Sound c) :
    m.apply c e = .error bad ↔ ∃ item, e.brings? = some item ∧
      (View.mk c m).placement item = .destroyed ∧ bad = ⟨e, .destroyedItem item⟩ := by
  have hnone : (e.references.find? fun key => !c.contains key) = none := by
    rw [List.find?_eq_none]
    intro key hkey
    simp [h.declared key hkey]
  unfold State.apply
  rw [hnone]
  dsimp only
  cases e with
  | giveItem item | placeItem item _ | handItem item _ =>
    by_cases hdestroyed : (View.mk c m).placement item = .destroyed
    · simp [State.obstacle?, brings?, hdestroyed, eq_comm]
    · simp [State.obstacle?, brings?, hdestroyed]
  | describe key text =>
    have hkind := h.describable key text rfl
    simp [State.obstacle?, brings?, hkind]
  | _ => simp [State.obstacle?, brings?]

theorem State.Declared.item_of_placement (hs : s.Declared c) {i l : EntityId}
    (hp : (View.mk c s).placement i = .location l) : c.contains (.item i) = true := by
  unfold View.placement at hp
  split at hp
  · cases hp
  · have hrecorded : (View.mk c s).recordedPlacement i = .location l := by
      split at hp
      · cases hp
      · exact hp
    unfold View.recordedPlacement at hrecorded
    cases ho : (View.mk c s).override? (.item i) with
    | some o => exact (hs.overrides _ o ho).1
    | none =>
      have hinitial : c.initialPlacement i = .location l := by
        rw [ho] at hrecorded
        exact hrecorded
      show c.items.contains i = true
      rw [Table.contains_eq_isSome_get?]
      unfold Catalog.initialPlacement at hinitial
      split at hinitial
      · cases hinitial
      · cases hd : c.items.get? i with
        | some d => rfl
        | none =>
          rw [hd] at hinitial
          cases hinitial

theorem View.Approves.own_sound (hc : c.Accepted) (hs : s.Declared c) {i : Intent}
    (hp : (View.mk c s).Approves p) (hi : p.intent = i) (he : e ∈ (View.mk c s).ownEffects i) :
    e.Sound c := by
  have hown := hp.ownership
  rw [hi] at hown
  cases i with
  | move x =>
    obtain ⟨d, hd, rfl⟩ := Option.map_eq_some_iff.1 (Option.mem_toList.1 he)
    refine ⟨fun key hkey => ?_, fun _ _ h => nomatch h⟩
    rw [List.mem_singleton.1 hkey]
    exact hc.exit_declared (Table.mem_of_get? hd)
  | take target =>
    unfold View.ownEffects at he
    dsimp only at he
    split at he
    · rw [List.mem_singleton.1 he]
      refine ⟨fun key hkey => ?_, fun _ _ h => nomatch h⟩
      rw [List.mem_singleton.1 hkey]
      exact hs.item_of_placement (View.lies_of_checkOwnership hown).1
    · cases he
  | drop target =>
    unfold View.ownEffects at he
    dsimp only at he
    split at he
    · rw [List.mem_singleton.1 he]
      have hcarried := List.contains_iff_mem.1 (View.carried_of_checkOwnership hown)
      refine ⟨fun key hkey => ?_, fun _ _ h => nomatch h⟩
      rcases List.mem_cons.1 hkey with rfl | hkey
      · exact hs.inventory _ hcarried
      · rw [List.mem_singleton.1 hkey]
        exact hs.location
    · cases he
  | examine | use | talk | interact => cases he

theorem View.Approves.sound (hc : c.Accepted) (hs : s.Declared c) {i : Intent}
    (hp : (View.mk c s).Approves ((View.mk c s).plan i)) (he : e ∈ ((View.mk c s).plan i).effects) :
    e.Sound c := by
  obtain ⟨hi, ⟨-, heffects, -⟩ | ⟨d, hrider, heffects, -⟩⟩ := (View.mk c s).plan_cases i
  · rw [heffects] at he
    exact hp.own_sound hc hs hi he
  · rw [heffects] at he
    rcases List.mem_append.1 he with he | he
    · exact hp.own_sound hc hs hi he
    · exact hc.interaction_sound (View.rides_of_rider? hrider).1 he

theorem View.Approves.fails_iff (hc : c.Accepted) (hs : s.Declared c) {i : Intent}
    (hp : (View.mk c s).Approves ((View.mk c s).plan i)) :
    Fails c s ((View.mk c s).plan i) bad ↔ FindsDestroyed c s ((View.mk c s).plan i) bad := by
  have hsound : ∀ {m e}, Meets c s ((View.mk c s).plan i) m e → e.Sound c := by
    intro m e hmeets
    rcases hmeets.effect with he | ⟨b, hb, he⟩
    · exact hp.sound hc hs he
    · exact hc.beat_sound hb he
  rw [fails_iff_meets]
  constructor
  · rintro ⟨m, e, hmeets, hstop⟩
    obtain ⟨item, hfound⟩ := (hsound hmeets).apply_eq_error_iff.1 hstop
    exact ⟨m, e, item, hmeets, hfound⟩
  · rintro ⟨m, e, item, hmeets, hfound⟩
    exact ⟨m, e, hmeets, (hsound hmeets).apply_eq_error_iff.2 ⟨item, hfound⟩⟩

end

/-- Where a world that names its start has loaded, landing an approved plan fails exactly when it
comes to an effect that brings an item somewhere, and the item is destroyed by then. -/
theorem fails_exactly_at_destroyed {c : Catalog} (hc : c.Accepted) (hstart : c.start.location ≠ "")
    {s : State} (hs : Reachable c s) :
    (∀ (i : Intent) (effects : List Effect) (bad : Inconsistency),
      let p := (View.mk c s).plan i
      (View.mk c s).validate p = .approved effects →
        (s.commit c effects p.interaction = .error bad ↔ FindsDestroyed c s p bad)) ∧
    ∀ (l : Line) (bad : Inconsistency), (l.play c s).outcome = .error bad ↔
      ∃ p, l.decision c s.advanceTurn = .approved p p.effects ∧
        FindsDestroyed c s.advanceTurn p bad := by
  have hdeclared := State.Declared.reachable hc hstart hs
  have hcounted : s.advanceTurn.Declared c := { hdeclared with }
  refine ⟨fun i effects bad => ?_, fun l bad => ⟨fun hbad => ?_, ?_⟩⟩
  · intro p hv
    obtain ⟨hap, rfl⟩ := View.approves_of_validate hv
    exact commit_eq_error_iff.trans (hap.fails_iff hc hdeclared)
  · obtain ⟨-, ho, -⟩ | ⟨-, ho, hp, hfails⟩ | ⟨-, ho, -, -, -⟩ := l.ends c s
    · cases ho.symm.trans hbad
    · cases ho.symm.trans hbad
      obtain ⟨⟨i, rfl⟩, hap, -⟩ := Line.approves_of_decision hp
      exact ⟨_, hp, (hap.fails_iff hc hcounted).1 hfails⟩
    · cases ho.symm.trans hbad
  · rintro ⟨p, hp, hfinds⟩
    obtain ⟨⟨i, rfl⟩, hap, -⟩ := Line.approves_of_decision hp
    exact (Line.play_failed hp (commit_eq_error_iff.2 ((hap.fails_iff hc hcounted).2 hfinds))).2

theorem vase_accepted : vase.Accepted :=
  ⟨vaseDoc, Catalog.ofDocument_eq_ok_iff.2 ⟨by decide, rfl⟩⟩

/-- The vase that the second beat wants back is destroyed. -/
theorem vase_found_destroyed :
    vase.Accepted ∧ vase.start.location ≠ "" ∧ ∃ bad p,
      (Line.play vase { input := "smash" } (.initial vase)).outcome = .error bad ∧
      Line.decision vase { input := "smash" } (State.initial vase).advanceTurn =
        .approved p p.effects ∧
      FindsDestroyed vase (State.initial vase).advanceTurn p bad := by
  have hstart : vase.start.location ≠ "" := by decide
  have hfailure : (Line.play vase { input := "smash" } (.initial vase)).failure? =
      some ⟨.giveItem "vase", .destroyedItem "vase"⟩ := by decide +kernel
  have hbad := Played.failure?_eq_some_iff.1 hfailure
  obtain ⟨p, hp, hfinds⟩ :=
    ((fails_exactly_at_destroyed vase_accepted hstart .refl).2 _ _).1 hbad
  exact ⟨vase_accepted, hstart, _, p, hbad, hp, hfinds⟩

end Storyworld
