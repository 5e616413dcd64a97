import Storyworld.Proofs.Runs

/-!
# Where the player goes

After a turn the player stands where the last of its effects leads that moves the player
(`Course.location`). Of the effects that planning makes only that of taking an exit does, and no
plan to take one is approved unless the exit is `Passable` before the turn. So the player is
elsewhere after a turn only by way of a passable exit, or because an author has written so.
-/

namespace Storyworld

/-- The exit starts where the player stands, is seen and open, and leads to a place within reach. -/
structure View.Passable (v : View) (e : Exit) : Prop where
  origin : e.origin = v.state.location
  visible : v.exitVisible e = true
  unlocked : v.exitOpen e = true
  within : e.destination ∈ v.reachableLocations

/-- What brings the player to the location `place` in the turn `q`, which lands the plan `p` in the
state `s`. -/
inductive Brings (c : Catalog) (s : State) (p : Plan) (q : Played) (place : EntityId) : Prop
  | way {x : EntityId} {e : Exit} (intent : p.intent = .move x)
      (exit : (View.mk c s).exit? x = some e) (passable : (View.mk c s).Passable e)
      (destination : e.destination = place)
  | interaction {d : Interaction} (declared : d ∈ c.interactions.toList)
      (runs : p.interaction = some d.id) (moves : .movePlayer place ∈ d.effects)
  | beat {b : Beat} (declared : b ∈ c.beats.toList) (fires : b.fired ∈ q.beats)
      (moves : .movePlayer place ∈ b.effects)

/-! ### Effects -/

/-- A player who has been led somewhere has not moved, or was moved there by one of the effects. -/
theorem Effect.foldl_lead_cases (location : EntityId) (es : List Effect) :
    es.foldl Effect.lead location = location ∨
      .movePlayer (es.foldl Effect.lead location) ∈ es := by
  induction es generalizing location with
  | nil => exact .inl rfl
  | cons e es ih =>
    rw [List.foldl_cons]
    rcases ih (e.lead location) with hstays | hmoved
    · rw [hstays]
      cases e with
      | movePlayer l => exact .inr (.head _)
      | _ => exact .inl rfl
    · exact .inr (.tail _ hmoved)

section
variable {c : Catalog} {s t : State}

/-- Where a course of effects leads the player. -/
theorem Course.location {es : List Effect} (h : Course c s es t) :
    t.location = es.foldl Effect.lead s.location := by
  induction h with
  | refl => rfl
  | applied _ e he ih =>
    obtain ⟨-, -, rfl⟩ := State.apply_eq_ok_iff.1 he
    obtain ⟨_, _, _, _, _, hsame⟩ := State.exists_change_eq (c := c) _ e
    rw [hsame, List.foldl_append, ← ih]
    rfl
  | noted _ _ _ hscene ih => rw [hscene.location, ih]

end

/-! ### Plans -/

namespace View

variable {v : View}

/-- An intent moves the player by itself only if it is to take an exit. -/
theorem exit_of_ownEffects {i : Intent} {place : EntityId}
    (h : .movePlayer place ∈ v.ownEffects i) :
    ∃ x d, i = .move x ∧ v.catalog.exits.get? x = some d ∧ d.destination = place := by
  unfold ownEffects at h
  split at h
  · rename_i x
    obtain ⟨d, hd, hto⟩ := Option.map_eq_some_iff.1 (Option.mem_toList.1 h)
    exact ⟨x, d, rfl, hd, Effect.movePlayer.inj hto⟩
  · split at h <;> simp at h
  · split at h <;> simp at h
  · cases h

theorem Approves.passable {p : Plan} (h : v.Approves p) {x : EntityId}
    (hx : p.intent = .move x) : ∃ e, v.exit? x = some e ∧ v.Passable e := by
  have htarget := h.target
  rw [hx] at htarget
  obtain ⟨e, he, horigin, hvisible, hwithin, hopen⟩ := exit_of_checkWay htarget
  exact ⟨e, he, horigin, hvisible, hopen, hwithin⟩

/-- An approved plan that moves the player takes a passable exit to there, or it comes with an
interaction that is written to. -/
theorem Approves.cases_of_moves {i : Intent} (h : v.Approves (v.plan i)) {place : EntityId}
    (hmoves : .movePlayer place ∈ (v.plan i).effects) :
    (∃ x e, (v.plan i).intent = .move x ∧ v.exit? x = some e ∧ v.Passable e ∧
      e.destination = place) ∨
    ∃ d ∈ v.catalog.interactions.toList, (v.plan i).interaction = some d.id ∧
      .movePlayer place ∈ d.effects := by
  obtain ⟨hintent, hrides⟩ := v.plan_cases i
  have hown : .movePlayer place ∈ v.ownEffects i →
      ∃ x e, (v.plan i).intent = .move x ∧ v.exit? x = some e ∧ v.Passable e ∧
        e.destination = place := by
    intro hown
    obtain ⟨x, d, rfl, hd, hto⟩ := exit_of_ownEffects hown
    obtain ⟨e, he, hpassable⟩ := h.passable hintent
    obtain ⟨d', hd', -, -, hdestination, -⟩ := exit?_eq_some he
    obtain rfl : d' = d := Option.some.inj (hd'.symm.trans hd)
    exact ⟨x, e, hintent, he, hpassable, hdestination.trans hto⟩
  rcases hrides with ⟨-, heffects, -⟩ | ⟨d, hrider, heffects, hget⟩
  · rw [heffects] at hmoves
    exact .inl (hown hmoves)
  · rw [heffects] at hmoves
    rcases List.mem_append.1 hmoves with hmoves | hmoves
    · exact .inl (hown hmoves)
    · obtain ⟨id, hid, hget⟩ := Option.bind_eq_some_iff.1 hget
      obtain rfl : d.id = id := Table.id_of_get? hget
      exact .inr ⟨d, (rides_of_rider? hrider).1, hid, hmoves⟩

end View

/-! ### Turns -/

/-- A turn that leaves the player elsewhere lands a plan, and either the plan is to take an exit
which was passable before the turn and leads to where the player is then, or an effect that moves
the player there is written in the interaction that goes with the plan or in a beat that the turn
fires. -/
theorem brought_by_way_or_author {c : Catalog} {s : State} {l : Line}
    (hmoved : (l.play c s).state.location ≠ s.location) :
    ∃ p done, l.landing? c s = some (p, done) ∧
      Brings c s p (l.play c s) (l.play c s).state.location := by
  cases hl : l.landing? c s with
  | none =>
    rw [(Line.play_of_none hl).1] at hmoved
    exact absurd rfl hmoved
  | some x =>
    obtain ⟨p, done⟩ := x
    refine ⟨p, done, rfl, ?_⟩
    obtain ⟨hstate, -⟩ := Line.play_of_some hl
    have hlands := Line.lands hl
    obtain ⟨acted, beaten, passed, hstages⟩ := hlands.stages
    have hbeats : (l.play c s).beats =
        done.beats ++ (done.transition.bind (·.gateBeat)).toList := by
      rw [Played.beats_eq, Line.dueBeats_of_some hl, Line.transition?_of_some hl]
    have hled := hstages.course.location
    rw [hstate] at hmoved ⊢
    rcases Effect.foldl_lead_cases s.advanceTurn.location _ with hstays | hmoves
    · exact absurd (hled.trans hstays) hmoved
    rw [← hled] at hmoves
    rcases List.mem_append.1 hmoves with hmoves | hmoves
    · -- The plan moves the player; it was approved in the state before the turn, counted on.
      obtain ⟨i, rfl⟩ := hlands.planned
      rcases hlands.approved.cases_of_moves hmoves with
        ⟨x, e, hx, he, hpassable, hto⟩ | ⟨d, hd, hruns, hmoves⟩
      · exact .way hx he ⟨hpassable.origin, hpassable.visible, hpassable.unlocked,
          hpassable.within⟩ hto
      · exact .interaction hd hruns hmoves
    · obtain ⟨f, hf, hmoves⟩ := List.mem_flatMap.1 hmoves
      obtain ⟨b, hb, rfl⟩ := hstages.exists_beat hf
      exact .beat hb (hbeats ▸ hf) hmoves

/-- A rock off the shore, from which the first wave washes everyone into a cave. -/
def shoreDoc : WorldDocument where
  world := some { title := "Shore" }
  start := some { location := "shore" }
  locations := [{ id := "shore", name := "Shore" }, { id := "rock", name := "Rock" },
    { id := "cave", name := "Cave" }]
  exits := [
    { id := "wade", direction := some "north", origin := "shore", destination := "rock" },
    { id := "climb", direction := some "up", origin := "cave", destination := "shore" }]
  beats := [{ id := "wave", trigger := .atom (.at "rock"), effects := [.movePlayer "cave"] }]
  acts := [{ id := "flood", locations := ["shore", "rock"] }]

def shore : Catalog := .draft shoreDoc

/-- Who wades to the rock is washed into the cave, and climbs out of it. -/
theorem washed_into_cave :
    let wade : Line := { input := "north" }
    let climb : Line := { input := "up" }
    let s := State.initial shore
    let t := (wade.play shore s).state
    (t.location ≠ s.location ∧ t.location = "cave" ∧
      ∃ p done, wade.landing? shore s = some (p, done) ∧
        Brings shore s p (wade.play shore s) "cave") ∧
    ((climb.play shore t).state.location ≠ t.location ∧
      ∃ p done, climb.landing? shore t = some (p, done) ∧
        Brings shore t p (climb.play shore t) "shore") := by
  intro wade climb s t
  have hcave : t.location = "cave" := by decide +kernel
  have hshore : (climb.play shore t).state.location = "shore" := by decide +kernel
  have hwashed : t.location ≠ s.location := by
    rw [hcave]
    decide
  have hclimbed : (climb.play shore t).state.location ≠ t.location := by
    rw [hcave, hshore]
    decide
  have hbrought := brought_by_way_or_author hwashed
  have hbrought' := brought_by_way_or_author hclimbed
  rw [hshore] at hbrought'
  exact ⟨⟨hwashed, hcave, hcave ▸ hbrought⟩, hclimbed, hbrought'⟩

end Storyworld
