import Storyworld.Session
import Storyworld.Proofs.References
import Storyworld.Proofs.Sparsity
import Storyworld.Proofs.Written

/-!
# Saving and resuming

A session that is saved, read back and resumed on its own world is the session that was saved,
exactly if its state is `Resumable`: what it refers to is declared, and no override is of an entity
with an empty identifier. In a world that names its start and its entities every state that turns
lead to is, and a game that is cut there goes on as if it had not been.
-/

namespace Storyworld

/-- A save of the state can be read, and taken up again on the catalog. -/
structure State.Resumable (c : Catalog) (s : State) : Prop where
  named : s.NamesOverrides
  declared : s.Declared c

/-- The start names its location, and whatever can be overridden has an identifier. -/
structure Catalog.Named (c : Catalog) : Prop where
  start : c.start.location ≠ ""
  entities : ∀ key ∈ c.overridable, key.id ≠ ""

namespace State

variable {c : Catalog} {s : State}

theorem NamesOverrides.of_sparse (hs : s.Sparse c) (hc : ∀ key ∈ c.overridable, key.id ≠ "") :
    s.NamesOverrides := by
  rintro ⟨key, o⟩ he
  have ho : s.overrides.get? key = some o := SortedMap.get?_eq_some_iff.2 he
  have hkind : key.kind.overridable = true := by
    rw [← hs.kinds key o ho]
    cases o <;> rfl
  exact hc key (Catalog.mem_overridable.2 ⟨hkind, hs.declared key o ho⟩)

/-- Whatever turns lead to in a world that names its start and its entities can be resumed. -/
theorem Resumable.reachable (hc : c.Accepted) (hnamed : c.Named) (hs : Reachable c s) :
    s.Resumable c where
  named := .of_sparse (.reachable hs) hnamed.entities
  declared := .reachable hc hnamed.start hs

end State

namespace Save

variable {id : SessionId} {now : Instant} {c : Catalog} {s t : State}

theorem restore_of_version_eq {save : Save} (hformat : save.format = currentFormat)
    (hversion : save.catalogVersion = c.version) :
    save.restore c = .ok t ↔ t = save.state ∧ save.state.Declared c := by
  rw [← State.dangling_eq_nil_iff]
  unfold restore
  rw [if_neg (not_not.2 hformat), if_pos hversion]
  cases save.state.dangling c with
  | nil => simp [eq_comm]
  | cons key keys => simp

theorem restore_capture_eq_ok_iff :
    (capture id now c s).restore c = .ok t ↔ t = s ∧ s.Declared c := restore_of_version_eq rfl rfl

theorem parse?_capture (hnow : now.IsValid) :
    parse? (capture id now c s).text =
      if s.NamesOverrides then some (capture id now c s) else none :=
  parse?_text hnow

/-- Whatever state comes back from the text of a save is the state that was saved. -/
theorem eq_of_restore {save : Save} (hread : parse? (capture id now c s).text = some save)
    (hrestored : save.restore c = .ok t) : t = s := by
  rw [parse?_text_eq] at hread
  split at hread
  · obtain ⟨savedAt, -, rfl⟩ := Option.map_eq_some_iff.1 hread
    exact (restore_capture_eq_ok_iff.1 hrestored).1
  · cases hread

/-- A state comes back from the text of its save exactly if it is resumable. -/
theorem read_back_iff (hnow : now.IsValid) :
    (∃ save, parse? (capture id now c s).text = some save ∧ save.restore c = .ok s) ↔
      s.Resumable c := by
  rw [parse?_capture hnow]
  constructor
  · rintro ⟨save, hread, hrestored⟩
    split at hread
    · rename_i hnamed
      cases hread
      exact ⟨hnamed, (restore_capture_eq_ok_iff.1 hrestored).2⟩
    · cases hread
  · intro h
    rw [if_pos h.named]
    exact ⟨_, rfl, restore_capture_eq_ok_iff.2 ⟨rfl, h.declared⟩⟩

end Save

namespace Session

/-- The session that is resumed from the text of a save of the session, on the same world and under
the same settings. -/
def resumed (g : Session) (now : Instant) : Option Session :=
  (Save.parse? (g.save now).text).bind fun save => (resume g.catalog g.settings save).toOption

/-- The session after one more line, which is read with companions. -/
def turn (g : Session) (l : Companions × String) : Session := g.after (g.play l.1 l.2)

def turns (g : Session) (ls : List (Companions × String)) : Session := ls.foldl turn g

def outcomes (g : Session) : List (Companions × String) → List Played
  | [] => []
  | l :: ls => g.play l.1 l.2 :: (g.turn l).outcomes ls

variable {g : Session} {now : Instant}

theorem resumed_of_resumable (hnow : now.IsValid) (h : g.state.Resumable g.catalog) :
    g.resumed now = some g := by
  have hrestored : (g.save now).restore g.catalog = .ok g.state :=
    Save.restore_capture_eq_ok_iff.2 ⟨rfl, h.declared⟩
  have hresume : resume g.catalog g.settings (g.save now) = .ok g := by
    unfold resume
    rw [hrestored]
    rfl
  have hread : Save.parse? (g.save now).text = some (g.save now) := by
    unfold save
    rw [Save.parse?_capture hnow, if_pos h.named]
  unfold resumed
  rw [hread, Option.bind_some, hresume]
  rfl

theorem turns_cons (g : Session) (l : Companions × String) (ls : List (Companions × String)) :
    g.turns (l :: ls) = (g.turn l).turns ls := by
  unfold turns
  rw [List.foldl_cons]

theorem turns_append (g : Session) (ls ms : List (Companions × String)) :
    g.turns (ls ++ ms) = (g.turns ls).turns ms :=
  List.foldl_append

theorem outcomes_append (g : Session) (ls ms : List (Companions × String)) :
    g.outcomes (ls ++ ms) = g.outcomes ls ++ (g.turns ls).outcomes ms := by
  induction ls generalizing g with
  | nil => rfl
  | cons l ls ih => rw [List.cons_append, outcomes, outcomes, turns_cons, ih, List.cons_append]

theorem catalog_turn (g : Session) (l : Companions × String) : (g.turn l).catalog = g.catalog := by
  unfold turn after
  rfl

theorem state_turn (g : Session) (l : Companions × String) :
    (g.turn l).state = (Line.play g.catalog ⟨g.settings, l.1, l.2⟩ g.state).state := by
  unfold turn after play Line.play
  dsimp only

theorem catalog_turns (g : Session) (ls : List (Companions × String)) :
    (g.turns ls).catalog = g.catalog := by
  induction ls generalizing g with
  | nil => rfl
  | cons l ls ih => rw [turns_cons, ih, catalog_turn]

theorem reachable_turns (hg : Reachable g.catalog g.state) (ls : List (Companions × String)) :
    Reachable g.catalog (g.turns ls).state := by
  induction ls generalizing g with
  | nil => exact hg
  | cons l ls ih =>
    rw [turns_cons, ← catalog_turn g l]
    refine ih ?_
    rw [catalog_turn, state_turn]
    exact hg.turn _

/-- A session that turns lead to comes back from the text of its save as it was exactly if its state
is resumable, which every state is in a world that names its start and its entities. Where a list of
lines is cut at such a state, the session that is resumed there plays the rest of them to the same
outcomes and the same end as the session that is not interrupted. -/
theorem saved_and_resumed (hc : g.catalog.Accepted) (hg : Reachable g.catalog g.state)
    (hnow : now.IsValid) :
    ((∃ save, Save.parse? (g.save now).text = some save ∧
        save.restore g.catalog = .ok g.state) ↔ g.state.Resumable g.catalog) ∧
      (g.catalog.Named → ∀ ls, (g.turns ls).state.Resumable g.catalog) ∧
      ∀ ls k, (g.turns (ls.take k)).state.Resumable g.catalog →
        ∃ h, (g.turns (ls.take k)).resumed now = some h ∧
          g.outcomes ls = g.outcomes (ls.take k) ++ h.outcomes (ls.drop k) ∧
          g.turns ls = h.turns (ls.drop k) := by
  refine ⟨Save.read_back_iff hnow, fun hnamed ls => ?_, fun ls k hcut => ?_⟩
  · exact .reachable hc hnamed (reachable_turns hg ls)
  · refine ⟨g.turns (ls.take k), resumed_of_resumable hnow ?_, ?_, ?_⟩
    · rw [catalog_turns]
      exact hcut
    · rw [← outcomes_append, List.take_append_drop]
    · rw [← turns_append, List.take_append_drop]

end Session

/-- A game in the cellar is cut after the lantern was taken, and goes on to the same end. -/
theorem lantern_taken_up_again :
    let g := Session.start .zero cellar {}
    let ls : List (Companions × String) := [({}, "take lantern"), ({}, "drop lantern")]
    cellar.Accepted ∧ Reachable cellar g.state ∧ Instant.epoch.IsValid ∧ cellar.Named ∧
      g.state.Resumable cellar ∧
      (∃ save, Save.parse? (g.save .epoch).text = some save ∧ save.restore cellar = .ok g.state) ∧
      (g.turns (ls.take 1)).state.Resumable cellar ∧
      ∃ h, (g.turns (ls.take 1)).resumed .epoch = some h ∧
        g.outcomes ls = g.outcomes (ls.take 1) ++ h.outcomes (ls.drop 1) ∧
        g.turns ls = h.turns (ls.drop 1) := by
  intro g ls
  have hnamed : cellar.Named := ⟨by decide, by decide⟩
  have hg : Reachable g.catalog g.state := .refl
  obtain ⟨hread, hall, hcut⟩ := Session.saved_and_resumed cellar_accepted hg Instant.isValid_epoch
  have hstart := hall hnamed []
  have hmid := hall hnamed (ls.take 1)
  exact ⟨cellar_accepted, hg, Instant.isValid_epoch, hnamed, hstart, hread.2 hstart, hmid,
    hcut ls 1 hmid⟩

/-- A cellar with a lantern that has no identifier. -/
def namelessDoc : WorldDocument where
  world := some { title := "Cellar" }
  start := some { location := "cellar" }
  locations := [{ id := "cellar", name := "Cellar" }]
  items := [{ id := "", name := "lantern", location := some "cellar" }]
  acts := [{ id := "night", locations := ["cellar"] }]

def nameless : Catalog := .draft namelessDoc

/-- A cellar in which the start names no location. -/
def placelessDoc : WorldDocument where
  world := some { title := "Cellar" }
  start := some { location := "" }
  locations := [{ id := "cellar", name := "Cellar" }]
  acts := [{ id := "night", locations := ["cellar"] }]

def placeless : Catalog := .draft placelessDoc

theorem nameless_accepted : nameless.Accepted :=
  ⟨namelessDoc, Catalog.ofDocument_eq_ok_iff.2 ⟨by decide, rfl⟩⟩

theorem placeless_accepted : placeless.Accepted :=
  ⟨placelessDoc, Catalog.ofDocument_eq_ok_iff.2 ⟨by decide, rfl⟩⟩

/-- Once the lantern without an identifier is taken, the save of the game cannot be read; and where
the start names no location, not even the fresh game can be resumed. -/
theorem nameless_unread :
    (let g := (Session.start .zero nameless {}).turn ({}, "take lantern")
     nameless.Accepted ∧ Reachable nameless g.state ∧ Instant.epoch.IsValid ∧
       Save.parse? (g.save .epoch).text = none) ∧
    (let g := Session.start .zero placeless {}
     placeless.Accepted ∧ Reachable placeless g.state ∧
       (g.save .epoch).restore placeless = .error (.corrupt ["location:"])) := by
  constructor
  · intro g
    have hunnamed : ¬g.state.NamesOverrides := by decide +kernel
    have hg : Reachable nameless g.state :=
      Session.reachable_turns (g := .start .zero nameless {}) .refl [({}, "take lantern")]
    refine ⟨nameless_accepted, hg, Instant.isValid_epoch, ?_⟩
    unfold Session.save
    rw [Save.parse?_capture Instant.isValid_epoch, if_neg hunnamed]
  · exact ⟨placeless_accepted, .refl, by decide +kernel⟩

end Storyworld
