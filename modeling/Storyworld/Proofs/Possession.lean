import Storyworld.Proofs.Accepted
import Storyworld.Proofs.Runs

/-!
# Having what is used

An interaction of using an item runs by the verb or by its phrase (`View.route_of_rider?`). The verb
asks for the item, which has to be at hand. The phrase does not: it asks whether the interaction is
ready and its target there, and what its effects do, and nothing else (`View.approves_phrase_iff`).
So an approved use has its item at hand, unless the player asked for it by the phrase
(`use_at_hand`).
-/

namespace Storyworld
namespace View

variable {v : View} {d : Interaction}

theorem kind_of_mem_offered {kind : InteractionKind} (h : d ∈ v.offered kind) : d.kind = kind := by
  have hkind := (List.mem_filter.1 h).2
  simpa using (Bool.and_eq_true_iff.1 hkind).1

theorem route_of_rider? {i : Intent} (h : v.rider? i = some d) (hkind : d.kind = .use) :
    (∃ item, i = .use (.item item) d.target ∧ d.item = some item) ∨ i = .interact d.id := by
  have hother : ∀ {kind : InteractionKind}, d ∈ v.offered kind → kind = .use := fun hmem =>
    (kind_of_mem_offered hmem).symm.trans hkind
  unfold rider? at h
  split at h
  · cases h
  · cases h
  · cases h
  · exact absurd (hother (List.mem_of_find?_eq_some h)) (by decide)
  · exact absurd (hother (List.mem_filter.1 (mem_of_preferred h)).1) (by decide)
  · rename_i key on
    have hfits := (List.mem_filter.1 (mem_of_preferred h)).2
    obtain ⟨hfits, htarget⟩ := Bool.and_eq_true_iff.1 hfits
    obtain ⟨hitem, hkey⟩ := Bool.and_eq_true_iff.1 hfits
    refine .inl ⟨key.id, ?_, by simpa using hitem⟩
    have hkey : key = .item key.id := by
      obtain ⟨kind, id⟩ := key
      obtain rfl : kind = .item := by simpa using hkey
      rfl
    rw [← hkey, show d.target = on by simpa using htarget]
  · exact absurd (hother (List.mem_filter.1 (mem_of_preferred h)).1) (by decide)
  · exact .inr (congrArg Intent.interact (Table.id_of_get? h).symm)

/-- What an interaction is asked that is asked for by its phrase. Its item is not. -/
theorem approves_phrase_iff (hd : d ∈ v.catalog.interactions.toList) :
    v.Approves (v.plan (.interact d.id)) ↔
      v.ready d = true ∧ (∀ key ∈ d.target, v.isPresent key = true) ∧
        v.checkCritical d.effects = none ∧ v.checkWinnable d.effects = none := by
  have hget : v.catalog.interactions.get? d.id = some d := Table.get?_eq_some_iff.2 ⟨hd, rfl⟩
  have hplan : v.plan (.interact d.id) =
      { intent := .interact d.id, effects := d.effects, interaction := some d.id,
        response := d.response } := by
    unfold plan
    rw [show v.rider? (.interact d.id) = some d from hget]
    rfl
  rw [hplan]
  constructor
  · intro h
    have hcheck := h.interaction hget
    obtain ⟨hoffers, hholds, hspent⟩ := ready_of_checkInteraction hcheck
    refine ⟨?_, fun key hkey => present_of_checkInteraction hcheck hkey, h.critical, h.winnable⟩
    unfold ready
    rw [hoffers, hholds, hspent]
    rfl
  · rintro ⟨hready, hpresent, hcritical, hwinnable⟩
    unfold ready at hready
    simp only [Bool.and_eq_true, Bool.not_eq_true'] at hready
    obtain ⟨⟨hoffers, hspent⟩, hholds⟩ := hready
    refine ⟨rfl, ?_, rfl, hcritical, hwinnable⟩
    show (none <|> (v.catalog.interactions.get? d.id).bind _) = none
    rw [hget]
    show v.checkInteraction (.interact d.id) d = none
    unfold checkInteraction
    simp only [hoffers, hspent, hholds]
    cases hkey : d.target with
    | none => rfl
    | some key =>
      have := hpresent key hkey
      simp [checkPresent, this]

end View

/-- An interaction of using something that is part of an approved turn names a declared item. The
item is at hand before the turn, or the interaction is asked for by its phrase. -/
theorem use_at_hand {c : Catalog} (hc : c.Accepted) {s : State} {l : Line} {p : Plan}
    {effects : List Effect} (h : l.decision c s.advanceTurn = .approved p effects) {d : Interaction}
    (hd : p.interaction.bind c.interactions.get? = some d) (hkind : d.kind = .use) :
    ∃ i, d.item = some i ∧ c.contains (.item i) = true ∧
      ((View.mk c s).AtHand i ∨ p.intent = .interact d.id) := by
  obtain ⟨⟨intent, rfl⟩, hap, -⟩ := Line.approves_of_decision h
  obtain ⟨hintent, hrides⟩ := View.plan_cases (View.mk c s.advanceTurn) intent
  rcases hrides with ⟨-, -, hnone⟩ | ⟨d', hrider, -, hget⟩
  · rw [hnone] at hd
    cases hd
  · obtain rfl : d' = d := Option.some.inj (hget.symm.trans hd)
    obtain ⟨i, hi, hdeclared⟩ := hc.use_item (View.rides_of_rider? hrider).1 hkind
    refine ⟨i, hi, hdeclared, ?_⟩
    rw [hintent]
    rcases View.route_of_rider? hrider hkind with ⟨item, hverb, hitem⟩ | hphrase
    · obtain rfl : item = i := Option.some.inj (hitem.symm.trans hi)
      have hown := hap.ownership
      rw [hintent, hverb] at hown
      exact .inl (View.atHand_of_checkOwnership hown)
    · exact .inr hphrase

/-- A nave with a hammer to strike the bell with, and out of reach in the tower the rope to ring it
by. -/
def belfryDoc : WorldDocument where
  world := some { title := "Belfry" }
  start := some { location := "nave", inventory := ["hammer"] }
  locations := [{ id := "nave", name := "Nave" }, { id := "tower", name := "Tower" }]
  items := [
    { id := "hammer", name := "hammer" },
    { id := "rope", name := "rope", location := some "tower" }]
  interactions := [
    { id := "strike", kind := .use, triggers := ["strike"], item := some "hammer"
      effects := [.setFlag "struck" (.bool true)] },
    { id := "ring", kind := .use, triggers := ["ring"], item := some "rope"
      effects := [.setFlag "rung" (.bool true)] }]
  acts := [{ id := "feast", locations := ["nave"] }]

def belfry : Catalog := .draft belfryDoc

theorem belfry_accepted : belfry.Accepted :=
  ⟨belfryDoc, Catalog.ofDocument_eq_ok_iff.2 ⟨by decide, rfl⟩⟩

/-- Who strikes the bell has the hammer. -/
theorem hammer_at_hand :
    ∃ p effects d,
      Line.decision belfry { input := "use hammer" } (State.initial belfry).advanceTurn =
        .approved p effects ∧
      p.interaction.bind belfry.interactions.get? = some d ∧ d.id = "strike" ∧ d.kind = .use ∧
      ∃ i, d.item = some i ∧ (View.mk belfry (.initial belfry)).AtHand i := by
  have hlanding : (Line.landing? belfry { input := "use hammer" } (.initial belfry)).map
      (fun x => (x.1.intent, x.1.interaction)) =
        some (.use (.item "hammer") none, some "strike") := by decide +kernel
  obtain ⟨d, hstrike, hid, hkind⟩ : ∃ d, belfry.interactions.get? "strike" = some d ∧
      d.id = "strike" ∧ d.kind = .use := ⟨_, rfl, rfl, rfl⟩
  obtain ⟨⟨p, done⟩, hl, heq⟩ := Option.map_eq_some_iff.1 hlanding
  obtain ⟨hintent, hinteraction⟩ : p.intent = _ ∧ p.interaction = _ := Prod.mk.inj heq
  have hp := (Line.decision_of_some hl).1
  have hd : p.interaction.bind belfry.interactions.get? = some d := by
    rw [hinteraction]
    exact hstrike
  obtain ⟨i, hi, -, hhand⟩ := use_at_hand belfry_accepted hp hd hkind
  refine ⟨p, _, d, hp, hd, hid, hkind, i, hi, hhand.resolve_right fun hphrase => ?_⟩
  rw [hintent] at hphrase
  cases hphrase

/-- The bell is rung by the phrase, and the rope is in the tower. -/
theorem rope_out_of_reach :
    ¬∀ (c : Catalog) (s : State) (l : Line) (p : Plan) (effects : List Effect) (d : Interaction)
      (i : EntityId), c.Accepted → Reachable c s →
        l.decision c s.advanceTurn = .approved p effects →
        p.interaction.bind c.interactions.get? = some d → d.kind = .use → d.item = some i →
        (View.mk c s).AtHand i := by
  intro h
  have hlanding : (Line.landing? belfry { input := "ring" } (.initial belfry)).map
      (·.1.interaction) = some (some "ring") := by decide +kernel
  obtain ⟨d, hring, hkind, hitem⟩ : ∃ d, belfry.interactions.get? "ring" = some d ∧
      d.kind = .use ∧ d.item = some "rope" := ⟨_, rfl, rfl, rfl⟩
  obtain ⟨⟨p, done⟩, hl, hinteraction⟩ := Option.map_eq_some_iff.1 hlanding
  have hinteraction : p.interaction = some "ring" := hinteraction
  have hd : p.interaction.bind belfry.interactions.get? = some d := by
    rw [hinteraction]
    exact hring
  have hp := (Line.decision_of_some hl).1
  rcases h belfry _ _ p _ d "rope" belfry_accepted .refl hp hd hkind hitem with
    hcarried | ⟨-, hlies⟩
  · exact absurd hcarried (by decide)
  · exact absurd hlies (by decide)

end Storyworld
