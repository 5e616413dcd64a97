import Storyworld.Proofs.Runs

/-!
# What a condition depends on

Two states look the same to a condition (`Condition.SameTo`) if they agree on the flags that it
reads and, as far as conditions can tell, on the entities that it names. States that look the same
to a condition and to the conditions of the spokes that it asks about give it the same value
(`View.holds_eq_of_sameTo`): what the check of a world looks through is all that is ever read.
-/

namespace Storyworld

/-- The states agree on an entity, as far as conditions can tell. -/
def State.SameAt (c : Catalog) (s t : State) (key : EntityKey) : Prop :=
  match key.kind with
  | .location => s.location = key.id ↔ t.location = key.id
  | .item =>
    (key.id ∈ s.inventory ↔ key.id ∈ t.inventory) ∧
      (View.mk c s).placement key.id = (View.mk c t).placement key.id
  | .character => ∀ name, (View.mk c s).counter key.id name = (View.mk c t).counter key.id name
  | .spoke => key.id ∈ s.completedSpokes ↔ key.id ∈ t.completedSpokes
  | .beat => key.id ∈ s.firedBeats ↔ key.id ∈ t.firedBeats
  | .act => key.id ∈ s.reachedActs ↔ key.id ∈ t.reachedActs
  | .interaction => key.id ∈ s.usedInteractions ↔ key.id ∈ t.usedInteractions
  | .exit | .victory => True

/-- The states agree on the flags that a condition reads and on the entities that it names. -/
structure Condition.SameTo (cond : Condition) (c : Catalog) (s t : State) : Prop where
  flags : ∀ f ∈ cond.flagsRead, s.flags.get? f = t.flags.get? f
  entities : ∀ key ∈ cond.references, s.SameAt c t key

namespace Condition

variable {c : Catalog} {s t : State} {cond : Condition} {a : Atom}

theorem SameTo.atom (h : cond.SameTo c s t) (ha : a ∈ cond.atoms) :
    (Condition.atom a).SameTo c s t := by
  have hatoms : (Condition.atom a).atoms = [a] := rfl
  constructor
  · intro f hf
    unfold flagsRead at hf
    rw [hatoms] at hf
    obtain ⟨b, hb, hf⟩ := List.mem_filterMap.1 hf
    rw [List.mem_singleton.1 hb] at hf
    exact h.flags f (List.mem_filterMap.2 ⟨a, ha, hf⟩)
  · intro key hkey
    unfold references at hkey
    rw [hatoms, List.flatMap_singleton] at hkey
    exact h.entities key (List.mem_flatMap.2 ⟨a, ha, hkey⟩)

/-- The answer to an atom depends on what is read of it, and on the spokes that are followed. -/
theorem SameTo.answer_eq (h : (Condition.atom a).SameTo c s t) {f g : EntityId → Bool}
    (hspoke : ∀ x, a = .spoke x → f x = g x) :
    (View.mk c s).answer f a = (View.mk c t).answer g a := by
  have hlist : ∀ {l l' : List EntityId} {x}, (x ∈ l ↔ x ∈ l') → l.contains x = l'.contains x :=
    fun hmem => Bool.eq_iff_iff.2 (by simpa using hmem)
  obtain ⟨hflags, hentities⟩ := h
  cases a with
  | flag name => exact congrArg (·.any FlagValue.isTruthy) (hflags name (.head _))
  | flagEquals name value => exact congrArg (· == some value) (hflags name (.head _))
  | hasItem i => exact hlist (hentities (.item i) (.head _)).1
  | itemAt i l => exact congrArg (·.isIn l) (hentities (.item i) (.head _)).2
  | «at» l =>
    have hhere : s.location = l ↔ t.location = l := hentities (.location l) (.head _)
    exact Bool.eq_iff_iff.2 (by simpa [View.answer] using hhere)
  | counter p n cmp x => exact congrArg (cmp.holds · x) (hentities (.character p) (.head _) n)
  | spoke x => exact hspoke x rfl
  | beatFired b => exact hlist (hentities (.beat b) (.head _))
  | actReached act => exact hlist (hentities (.act act) (.head _))
  | interactionUsed d => exact Bool.eq_iff_iff.2 (hentities (.interaction d) (.head _))

/-- The spokes apart, a condition depends on what is read of it. -/
theorem SameTo.eval_eq (h : cond.SameTo c s t) {f g : EntityId → Bool}
    (hspokes : ∀ x ∈ cond.spokes, f x = g x) :
    cond.eval ((View.mk c s).answer f) = cond.eval ((View.mk c t).answer g) := by
  refine eval_congr cond fun a ha => (h.atom ha).answer_eq fun x hx => hspokes x ?_
  exact List.mem_filterMap.2 ⟨a, ha, by rw [hx]; rfl⟩

theorem SameTo.spokeRecorded_eq (h : cond.SameTo c s t) {x : EntityId} (hx : x ∈ cond.spokes) :
    (View.mk c s).spokeRecorded x = (View.mk c t).spokeRecorded x := by
  obtain ⟨a, ha, hspoke⟩ := List.mem_filterMap.1 hx
  obtain rfl := Atom.spoke?_eq_some_iff.1 hspoke
  exact Bool.eq_iff_iff.2 ((h.atom ha).entities (.spoke x) (.head _))

end Condition

/-- States that look the same to a condition and to the conditions of the spokes that it asks about
give it the same value. -/
theorem View.holds_eq_of_sameTo {c : Catalog} {s t : State} {cond : Condition}
    (h : cond.SameTo c s t)
    (hspokes : ∀ x ∈ cond.spokes, ∀ d, c.spokes.get? x = some d → d.condition.SameTo c s t) :
    (View.mk c s).holds cond = (View.mk c t).holds cond := by
  refine h.eval_eq fun x hx => ?_
  unfold spokeSatisfied
  rw [h.spokeRecorded_eq hx]
  refine congrArg _ ?_
  show (c.spokes.get? x).any _ = (c.spokes.get? x).any _
  cases hd : c.spokes.get? x with
  | none => rfl
  | some d =>
    have hsame := hspokes x hx d hd
    exact hsame.eval_eq fun y hy => hsame.spokeRecorded_eq hy

/-- An orchard whose farmer comes to trust those who help. -/
def orchardDoc : WorldDocument where
  world := some { title := "Orchard" }
  start := some { location := "orchard", inventory := ["basket"] }
  locations := [{ id := "orchard", name := "Orchard" }, { id := "lane", name := "Lane" }]
  items := [
    { id := "apple", name := "apple", location := some "orchard" },
    { id := "basket", name := "basket" }]
  characters := [
    { id := "farmer", name := "Farmer", location := some "lane",
      counters := .ofList [("trust", 1)] }]
  exits := [{ id := "gate", origin := "orchard", destination := "lane", direction := some "out" }]
  interactions := [
    { id := "help", triggers := ["help"], effects := [.setFlag "helped" (.bool true)] },
    { id := "whistle", triggers := ["whistle"], effects := [.setFlag "merry" (.bool true)] }]
  spokes := [
    { id := "trusted", act := "harvest",
      condition :=
        .any [.atom (.counter "farmer" "trust" .ge 3), .atom (.flag "helped")] }]
  acts := [{ id := "harvest", locations := ["orchard", "lane"], characters := ["farmer"] }]

def orchard : Catalog := .draft orchardDoc

theorem orchard_accepted : orchard.Accepted :=
  ⟨orchardDoc, Catalog.ofDocument_eq_ok_iff.2 ⟨by decide, rfl⟩⟩

/-- When the farmer keeps an eye on the player. -/
def watchful : Condition :=
  .all [.atom (.itemAt "apple" "orchard"),
    .not (.any [.atom (.spoke "trusted"), .not (.atom (.hasItem "basket"))])]

def whistled : State :=
  { State.initial orchard with
    turn := 1
    flags := .ofList [("merry", .bool true)]
    usedInteractions := .ofList ["whistle"] }

/-- A whistle is nothing to the farmer. -/
theorem farmer_watches_on :
    orchard.Accepted ∧
      (Line.play orchard { input := "whistle" } (.initial orchard)).state = whistled ∧
      (View.mk orchard (.initial orchard)).holds watchful = true ∧
      (View.mk orchard whistled).holds watchful = true := by
  have hplayed : (Line.play orchard { input := "whistle" } (.initial orchard)).state =
      whistled := by decide +kernel
  have hholds : (View.mk orchard (.initial orchard)).holds watchful = true := by decide +kernel
  have hsame : watchful.SameTo orchard (.initial orchard) whistled := by
    refine ⟨nofun, fun key hkey => ?_⟩
    have hkeys : watchful.references = [.item "apple", .location "orchard", .spoke "trusted",
      .item "basket"] := rfl
    rw [hkeys] at hkey
    simp only [List.mem_cons, List.not_mem_nil, or_false] at hkey
    rcases hkey with rfl | rfl | rfl | rfl
    · exact ⟨Iff.rfl, rfl⟩
    · exact Iff.rfl
    · exact Iff.rfl
    · exact ⟨Iff.rfl, rfl⟩
  have hspokes : ∀ x ∈ watchful.spokes, ∀ d, orchard.spokes.get? x = some d →
      d.condition.SameTo orchard (.initial orchard) whistled := by
    intro x hx d hd
    obtain rfl : x = "trusted" := List.mem_singleton.1 hx
    cases hd
    refine ⟨fun f hf => ?_, fun key hkey => ?_⟩
    · obtain rfl : f = "helped" := List.mem_singleton.1 hf
      rfl
    · obtain rfl : key = .character "farmer" := List.mem_singleton.1 hkey
      exact fun _ => rfl
  refine ⟨orchard_accepted, hplayed, hholds, ?_⟩
  exact (View.holds_eq_of_sameTo hsame hspokes).symm.trans hholds

end Storyworld
