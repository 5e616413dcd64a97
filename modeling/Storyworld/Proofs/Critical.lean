import Mathlib.Data.List.Induction
import Storyworld.Proofs.Accepted
import Storyworld.Proofs.Runs
import Storyworld.Proofs.World

/-!
# Critical items

What a plan does to the inventory is checked when it is made, and no authored effect removes,
destroys or hands over a critical item. Laying one down is left: the effects of a beat are not
checked when it fires, and loading does not look at `placeItem`. A critical item that is carried
stays with the player through a turn exactly unless the beats of the turn lay it down for good
(`mem_inventory_play_iff`).
-/

namespace Storyworld

/-! ### Effects on the inventory -/

section
variable {c : Catalog} {s t : State} {i : EntityId}

/-- What a course of effects makes of the inventory. -/
theorem Course.inventory {es : List Effect} (h : Course c s es t) :
    t.inventory = es.foldl Effect.carry s.inventory := by
  induction h with
  | refl => rfl
  | applied _ e he ih =>
    obtain ⟨-, -, rfl⟩ := State.apply_eq_ok_iff.1 he
    obtain ⟨_, _, _, _, _, hsame⟩ := State.exists_change_eq (c := c) _ e
    rw [hsame, List.foldl_append, ← ih]
    rfl
  | noted _ _ _ hscene ih => rw [hscene.inventory, ih]

/-- An item is carried after an effect that gives it, and otherwise if it was carried and the effect
does not put it elsewhere. -/
theorem Effect.mem_carry_iff {inventory : List EntityId} {e : Effect} :
    i ∈ e.carry inventory ↔
      e = .giveItem i ∨ (i ∈ inventory ∧ e.parts? ≠ some i ∧ ∀ l, e ≠ .placeItem i l) := by
  cases e with
  | giveItem item =>
    have hcarry : i ∈ (giveItem item).carry inventory ↔ item = i ∨ i ∈ inventory := by
      show i ∈ (if item ∈ inventory then inventory else inventory ++ [item]) ↔ _
      by_cases h : item ∈ inventory
      · rw [if_pos h]
        exact ⟨.inr, fun hi => hi.elim (fun heq => heq ▸ h) id⟩
      · simp [h, or_comm, eq_comm]
    rw [hcarry]
    simp [parts?, removes?]
  | removeItem item | destroyItem item | handItem item character | placeItem item location =>
    simp [carry, parts?, removes?, eq_comm (a := i)]
  | _ => simp [carry, parts?, removes?]

/-- The last that the effects do with the item is to lay it down somewhere. -/
def Laid (i : EntityId) (es : List Effect) : Prop :=
  ∃ before location after, es = before ++ .placeItem i location :: after ∧ .giveItem i ∉ after

theorem laid_concat_iff {es : List Effect} {e : Effect} :
    Laid i (es ++ [e]) ↔ (∃ l, e = .placeItem i l) ∨ (Laid i es ∧ e ≠ .giveItem i) := by
  constructor
  · rintro ⟨before, l, after, heq, hgive⟩
    rcases after.eq_nil_or_concat with rfl | ⟨after, e', rfl⟩
    · exact .inl ⟨l, by simpa using (List.append_inj' heq rfl).2⟩
    · have heq : es ++ [e] = (before ++ .placeItem i l :: after) ++ [e'] := by simpa using heq
      obtain ⟨hes, he⟩ := List.append_inj' heq rfl
      obtain rfl : e = e' := by simpa using he
      refine .inr ⟨⟨before, l, after, hes, fun h => hgive (by simp [h])⟩, fun h => hgive ?_⟩
      simp [h]
  · rintro (⟨l, rfl⟩ | ⟨⟨before, l, after, rfl, hgive⟩, he⟩)
    · exact ⟨es, l, [], rfl, by simp⟩
    · refine ⟨before, l, after ++ [e], by simp, fun h => ?_⟩
      rcases List.mem_append.1 h with h | h
      · exact hgive h
      · exact he (List.mem_singleton.1 h).symm

/-- An item that no effect parts from the player is carried in the end unless it is laid down. -/
theorem mem_foldl_carry_iff {es : List Effect} {inventory : List EntityId} (hi : i ∈ inventory)
    (hes : ∀ e ∈ es, e.parts? ≠ some i) :
    i ∈ es.foldl Effect.carry inventory ↔ ¬Laid i es := by
  induction es using List.reverseRecOn with
  | nil =>
    refine ⟨fun _ ⟨before, l, after, h, _⟩ => ?_, fun _ => hi⟩
    simp at h
  | append_singleton es e ih =>
    have ih := ih fun x hx => hes x (by simp [hx])
    have he := hes e (by simp)
    rw [List.foldl_append, List.foldl_cons, List.foldl_nil, Effect.mem_carry_iff, ih,
      laid_concat_iff]
    by_cases hgive : e = .giveItem i
    · simp [hgive]
    · simp [hgive, he, and_comm]

end

/-! ### Plans -/

section
variable {c : Catalog} {s t : State} {i : EntityId}

/-- An effect that loses no critical item leaves one that is carried where it is, and the rest of
the check knows it to be carried. -/
theorem keeps_of_criticalLoss? {e : Effect} {es : List Effect} {carried : List EntityId}
    (hcrit : c.isCritical i = true) (hcarried : i ∈ carried)
    (hloss : View.criticalLoss? c carried (e :: es) = none) :
    e.parts? ≠ some i ∧ (∀ l, e ≠ .placeItem i l) ∧
      ∃ carried', i ∈ carried' ∧ View.criticalLoss? c carried' es = none := by
  unfold View.criticalLoss? at hloss
  dsimp only at hloss
  split at hloss
  · cases hloss
  · rename_i hlost
    cases e with
    | removeItem item | destroyItem item =>
      have hne : item ≠ i := by
        rintro rfl
        simp [hcrit] at hlost
      exact ⟨by simpa [Effect.parts?, Effect.removes?], by simp, carried, hcarried, hloss⟩
    | placeItem item location | handItem item character =>
      have hne : item ≠ i := by
        rintro rfl
        simp [hcarried, hcrit] at hlost
      refine ⟨by simp [Effect.parts?, Effect.removes?, hne], by simp [hne], _, ?_, hloss⟩
      simpa [hcarried] using hne.symm
    | giveItem item =>
      exact ⟨by simp [Effect.parts?, Effect.removes?], by simp, _, by simp [hcarried], hloss⟩
    | _ => exact ⟨by simp [Effect.parts?, Effect.removes?], by simp, carried, hcarried, hloss⟩

theorem mem_inventory_of_criticalLoss? {es : List Effect} {carried : List EntityId}
    (hcrit : c.isCritical i = true) (hcarried : i ∈ carried) (hi : i ∈ s.inventory)
    (hloss : View.criticalLoss? c carried es = none) (h : s.applyAll c es = .ok t) :
    i ∈ t.inventory := by
  induction es generalizing s carried with
  | nil => cases h; exact hi
  | cons e es ih =>
    obtain ⟨hparts, hplace, carried', hcarried', hloss'⟩ :=
      keeps_of_criticalLoss? hcrit hcarried hloss
    obtain ⟨m, he, h⟩ := State.applyAll_cons_eq_ok_iff.1 h
    obtain ⟨-, -, rfl⟩ := State.apply_eq_ok_iff.1 he
    refine ih hcarried' ?_ hloss' h
    obtain ⟨_, _, _, _, _, hsame⟩ := s.exists_change_eq (c := c) e
    rw [hsame]
    exact Effect.mem_carry_iff.2 (.inr ⟨hi, hparts, hplace⟩)

/-! ### The beats of a turn -/

/-- A critical item is carried in the end unless the beats lay it down. -/
theorem Landing.mem_inventory_iff {p : Plan} {done : Commit} {acted beaten passed : State}
    (h : Landing c s p done acted beaten passed) (hi : i ∈ acted.inventory)
    (hes : ∀ b ∈ done.beats ++ (done.transition.bind (·.gateBeat)).toList,
      ∀ e ∈ b.effects, e.parts? ≠ some i) :
    i ∈ done.state.inventory ↔
      ¬Laid i ((done.beats ++ (done.transition.bind (·.gateBeat)).toList).flatMap (·.effects)) := by
  rw [h.course_beats.inventory]
  refine mem_foldl_carry_iff hi fun e he => ?_
  obtain ⟨b, hb, he⟩ := List.mem_flatMap.1 he
  exact hes b hb e he

end

/-! ### Turns -/

/-- Through a turn, whatever is typed, a critical item that is carried stays in the inventory
exactly unless the effects of the beats that fire, taken in order, lay it down last. -/
theorem mem_inventory_play_iff {c : Catalog} (hc : c.Accepted) {s : State} {i : EntityId}
    (hcrit : c.isCritical i = true) (hi : i ∈ s.inventory) (l : Line) :
    i ∈ (l.play c s).state.inventory ↔ ¬Laid i ((l.play c s).beats.flatMap (·.effects)) := by
  cases hl : l.landing? c s with
  | none =>
    obtain ⟨hstate, hbeats, -⟩ := Line.play_of_none hl
    rw [hstate, hbeats]
    refine ⟨fun _ ⟨before, location, after, h, _⟩ => ?_, fun _ => hi⟩
    simp at h
  | some x =>
    obtain ⟨p, done⟩ := x
    obtain ⟨hstate, o, ho, -, hbeats, htransition, -⟩ := Line.play_of_some hl
    have hlands := Line.lands hl
    obtain ⟨acted, beaten, passed, h⟩ := hlands.stages
    have hloss : View.criticalLoss? c s.advanceTurn.inventory p.effects = none := by
      have := hlands.approved.critical
      unfold View.checkCritical at this
      split at this
      · assumption
      · cases this
    have hacted : i ∈ acted.inventory :=
      mem_inventory_of_criticalLoss? (s := s.advanceTurn) hcrit hi hi hloss h.act
    have hfired :
        (l.play c s).beats = done.beats ++ (done.transition.bind (·.gateBeat)).toList := by
      unfold Played.beats
      rw [ho]
      dsimp only
      rw [hbeats, htransition]
    rw [hstate, hfired]
    refine h.mem_inventory_iff hacted fun b hb e he hparts => ?_
    obtain ⟨d, hd, heffects⟩ := h.beats_authored hb
    have hsafe := hc.beat_safe hd (heffects ▸ he)
    unfold Catalog.criticalRemoval? at hsafe
    rw [hparts] at hsafe
    simp [Option.filter, hcrit] at hsafe

/-- A vault whose critical crown the player carries, and a beat that lays it down at once. -/
def vaultDoc : WorldDocument where
  world := some { title := "Vault" }
  start := some { location := "vault", inventory := ["crown"] }
  locations := [{ id := "vault", name := "Vault" }]
  items := [{ id := "crown", name := "crown", critical := true }]
  beats := [{ id := "tremor", effects := [.placeItem "crown" "vault"] }]
  acts := [{ id := "siege", locations := ["vault"] }]

def vault : Catalog := .draft vaultDoc

theorem vault_accepted : vault.Accepted :=
  ⟨vaultDoc, Catalog.ofDocument_eq_ok_iff.2 ⟨by decide, rfl⟩⟩

/-- The crown cannot be dropped, and stays with the player. -/
theorem crown_kept_in_vault :
    vault.Accepted ∧ vault.isCritical "crown" = true ∧ "crown" ∈ (State.initial vault).inventory ∧
      "crown" ∈ (Line.play vault { input := "drop crown" } (.initial vault)).state.inventory := by
  have hcrit : vault.isCritical "crown" = true := by decide
  have hcarried : "crown" ∈ (State.initial vault).inventory := by decide
  have hbeats : (Line.play vault { input := "drop crown" } (.initial vault)).beats = [] := by
    decide +kernel
  refine ⟨vault_accepted, hcrit, hcarried, ?_⟩
  rw [mem_inventory_play_iff vault_accepted hcrit hcarried, hbeats]
  rintro ⟨before, location, after, h, -⟩
  simp at h

/-- Looking around in the vault sets off the beat, and the crown is out of the inventory. -/
theorem crown_laid_in_vault :
    ¬∀ (c : Catalog) (s : State) (l : Line) (i : EntityId), c.Accepted → Reachable c s →
      c.isCritical i = true → i ∈ s.inventory → i ∈ (l.play c s).state.inventory := by
  intro h
  have hkept := h vault (.initial vault) { input := "look" } "crown" vault_accepted .refl
    (by decide) (by decide)
  exact absurd hkept (by decide +kernel)

end Storyworld
