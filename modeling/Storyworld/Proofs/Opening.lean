import Storyworld.Proofs.Closure
import Storyworld.Proofs.World

/-!
# How sessions open

A session opens legally when the player stands in a declared place that is within reach, in a
declared act that is all of the history, and carries declared items, each once and none at home
elsewhere (`State.Legal`). The check of the start reads the list of the first act and not what the
act excludes, never looks for repeated items, and passes over a start whose location is empty. A
start that names its location opens a grounded session (`State.Grounded`), and a legal one exactly if
those two are in order (`legal_initial_iff`).
-/

namespace Storyworld

/-- The player stands in a declared place and has declared items in hand, which are nowhere else;
the history is the current act, and that is declared. -/
structure State.Grounded (c : Catalog) (s : State) : Prop where
  location : c.contains (.location s.location) = true
  act : c.contains (.act s.act) = true
  history : s.reachedActs = [s.act]
  inventory : ∀ i ∈ s.inventory, c.contains (.item i) = true
  carried : ∀ i ∈ s.inventory, (View.mk c s).placement i = .carried
  free : ∀ i ∈ s.inventory, ∀ d, (View.mk c s).item? i = some d →
    d.location = none ∧ d.holder = none

/-- Moreover the place is within reach, and no item is carried twice. -/
structure State.Legal (c : Catalog) (s : State) : Prop extends s.Grounded c where
  within : s.location ∈ (View.mk c s).reachableLocations
  distinct : s.inventory.Nodup

namespace View

/-- What is within reach after one more act: nothing that the act excludes, what it includes and,
unless the act replaces it, what was within reach before. -/
theorem mem_reachableBy_concat (sets : Act → List EntityId × List EntityId) (acts : List Act)
    (a : Act) (x : EntityId) :
    x ∈ reachableBy sets (acts ++ [a]) ↔
      ((a.mode ≠ .replace ∧ x ∈ reachableBy sets acts) ∨ x ∈ (sets a).1) ∧ x ∉ (sets a).2 := by
  unfold reachableBy
  rw [List.foldl_append, List.foldl_cons, List.foldl_nil, SortedSet.mem_eraseAll,
    SortedSet.mem_insertAll]
  by_cases hmode : a.mode = .replace <;> simp [hmode]

variable {c : Catalog}

theorem item?_initial (i : EntityId) : (View.mk c (.initial c)).item? i = c.items.get? i := by
  cases h : c.items.get? i with
  | none => simp [item?, h]
  | some d => simp [item?, h, override?, State.initial]

theorem mem_reachableLocations_initial {l : EntityId} :
    l ∈ (View.mk c (.initial c)).reachableLocations ↔
      ∃ a, c.acts.get? c.initialAct = some a ∧ l ∈ a.locations ∧ l ∉ a.excludeLocations := by
  have hacts : (View.mk c (.initial c)).reachedActs = (c.acts.get? c.initialAct).toList := by
    cases h : c.acts.get? c.initialAct <;> simp [reachedActs, State.initial, h]
  unfold reachableLocations
  rw [hacts]
  cases c.acts.get? c.initialAct with
  | none => simp [reachableBy]
  | some a =>
    have hnone : l ∉ reachableBy (fun a => (a.locations, a.excludeLocations)) [] := by
      simp [reachableBy]
    have hone := mem_reachableBy_concat (fun a => (a.locations, a.excludeLocations)) [] a l
    simpa [hnone] using hone

end View

section
variable {c : Catalog}

/-- Whether a session opens grounded can be read off the start. -/
theorem State.grounded_initial_iff :
    (State.initial c).Grounded c ↔
      c.contains (.location c.start.location) = true ∧ c.contains (.act c.initialAct) = true ∧
        ∀ i ∈ c.start.inventory, ∃ d, c.items.get? i = some d ∧
          d.location = none ∧ d.holder = none := by
  constructor
  · intro h
    refine ⟨h.location, h.act, fun i hi => ?_⟩
    obtain ⟨d, hd⟩ := Table.contains_iff_exists.1 (h.inventory i hi)
    exact ⟨d, hd, h.free i hi d (by rw [View.item?_initial, hd])⟩
  · rintro ⟨hlocation, hact, hinventory⟩
    refine ⟨hlocation, hact, rfl, fun i hi => ?_, fun i hi => ?_, fun i hi d hd => ?_⟩
    · obtain ⟨d, hd, -⟩ := hinventory i hi
      exact Table.contains_iff_exists.2 ⟨d, hd⟩
    · exact View.placement_of_carried (List.contains_iff_mem.2 hi)
    · obtain ⟨d', hd', hfree⟩ := hinventory i hi
      rw [View.item?_initial, hd'] at hd
      cases hd
      exact hfree

theorem State.Grounded.initial (hc : c.Accepted) (hstart : c.start.location ≠ "") :
    (State.initial c).Grounded c := by
  have hsound := hc.soundStart hstart
  refine grounded_initial_iff.2 ⟨hsound.location, hc.initialAct_declared hstart, fun i hi => ?_⟩
  obtain ⟨d, hd⟩ := Table.contains_iff_exists.1 (hsound.inventory i hi)
  exact ⟨d, hd, hsound.free i hi d hd⟩

theorem Catalog.Accepted.reached_declared (hc : c.Accepted) {l : EntityId}
    (h : l ∈ (View.mk c (.initial c)).reachableLocations) :
    c.contains (.location l) = true ∧ c.contains (.act c.initialAct) = true := by
  obtain ⟨a, ha, hl, -⟩ := View.mem_reachableLocations_initial.1 h
  exact ⟨hc.closed.declared _ (.actLocation (Table.mem_of_get? ha) (.inl hl)),
    Table.contains_iff_exists.2 ⟨a, ha⟩⟩

/-- A session of a world that loads opens legally exactly if no item is named twice, the first act
lists the location of the start without excluding it, and the items are declared to be nowhere. Of a
start that names its location the check leaves open just the first and whether the act excludes it;
all else is then in order. -/
theorem legal_initial_iff (hc : c.Accepted) :
    ((State.initial c).Legal c ↔
      c.start.inventory.Nodup ∧
        (∃ a, c.acts.get? c.initialAct = some a ∧ c.start.location ∈ a.locations ∧
          c.start.location ∉ a.excludeLocations) ∧
        ∀ i ∈ c.start.inventory, ∃ d, c.items.get? i = some d ∧
          d.location = none ∧ d.holder = none) ∧
    (c.start.location ≠ "" → (State.initial c).Grounded c ∧
      ((State.initial c).Legal c ↔ c.start.inventory.Nodup ∧
        ∀ a, c.acts.get? c.initialAct = some a → c.start.location ∉ a.excludeLocations)) := by
  refine ⟨⟨fun h => ?_, fun ⟨hdistinct, hwithin, hinventory⟩ => ?_⟩, fun hstart => ?_⟩
  · exact ⟨h.distinct, View.mem_reachableLocations_initial.1 h.within,
      (State.grounded_initial_iff.1 h.toGrounded).2.2⟩
  · have hwithin := View.mem_reachableLocations_initial.2 hwithin
    obtain ⟨hlocation, hact⟩ := hc.reached_declared hwithin
    exact ⟨State.grounded_initial_iff.2 ⟨hlocation, hact, hinventory⟩, hwithin, hdistinct⟩
  · have hgrounded := State.Grounded.initial hc hstart
    refine ⟨hgrounded, fun h => ⟨h.distinct, fun a ha => ?_⟩, fun ⟨hdistinct, hfree⟩ => ?_⟩
    · obtain ⟨a', ha', -, hnot⟩ := View.mem_reachableLocations_initial.1 h.within
      rw [ha'] at ha
      cases ha
      exact hnot
    · obtain ⟨a, ha⟩ := Table.contains_iff_exists.1 hgrounded.act
      exact ⟨hgrounded, View.mem_reachableLocations_initial.2
        ⟨a, ha, (hc.soundStart hstart).listed a ha, hfree a ha⟩, hdistinct⟩

end

/-- A pier where the player starts with what is listed, in an act that excludes what is listed. -/
def pierDoc (start : EntityId) (inventory excluded : List EntityId) : WorldDocument where
  world := some { title := "Pier" }
  start := some { location := start, inventory }
  locations := [{ id := "pier", name := "Pier" }, { id := "boat", name := "Boat" }]
  items := [{ id := "rope", name := "rope" }, { id := "oar", name := "oar" }]
  acts := [{ id := "tide", locations := ["pier", "boat"], excludeLocations := excluded }]

def pier (start : EntityId) (inventory excluded : List EntityId) : Catalog :=
  .draft (pierDoc start inventory excluded)

/-- A session at the pier opens legally, although its act excludes the boat. -/
theorem pier_opens_legally :
    (pier "pier" ["rope", "oar"] ["boat"]).Accepted ∧
      (State.initial (pier "pier" ["rope", "oar"] ["boat"])).Legal
        (pier "pier" ["rope", "oar"] ["boat"]) := by
  have hc : (pier "pier" ["rope", "oar"] ["boat"]).Accepted :=
    ⟨_, Catalog.ofDocument_eq_ok_iff.2 ⟨by decide, rfl⟩⟩
  have hact : (pier "pier" ["rope", "oar"] ["boat"]).acts.get? "tide" =
      some { id := "tide", locations := ["pier", "boat"], excludeLocations := ["boat"] } := rfl
  refine ⟨hc, (((legal_initial_iff hc).2 (by decide)).2).2 ⟨by decide, fun a ha => ?_⟩⟩
  obtain rfl := Option.some.inj (hact.symm.trans ha)
  decide

/-- The world loads as well if the act excludes the pier, where the session then opens out of
reach. -/
theorem excluded_pier_opens : ¬∀ c : Catalog, c.Accepted → (State.initial c).Legal c := by
  intro h
  have hlegal := h (pier "pier" [] ["pier"])
    ⟨_, Catalog.ofDocument_eq_ok_iff.2 ⟨by decide, rfl⟩⟩
  exact absurd hlegal.within (by decide)

/-- It loads with the rope listed twice, which is carried twice from then on. -/
example : (Catalog.ofDocument (pierDoc "pier" ["rope", "rope"] [])).isOk = true ∧
    (State.initial (pier "pier" ["rope", "rope"] [])).inventory = ["rope", "rope"] := by
  decide

/-- It loads with an anchor in hand that is not declared, if the location of the start is empty. -/
example : (Catalog.ofDocument (pierDoc "" ["anchor"] [])).isOk = true ∧
    (pier "" ["anchor"] []).contains (.item "anchor") = false := by
  decide

end Storyworld
