import Storyworld.Proofs.ActHistory
import Storyworld.Proofs.Resumption

/-!
# Restored states

What a save is restored to. On another version the migration rule makes a state of the saved one
(`MigrationRule.carry`), which is taken or refused but not changed any more: it is taken exactly if
everything that it refers to is declared and its acts lead to the current one
(`Save.restore_eq_ok_iff`). So whatever the file held, a restored state never dangles, and it is
restored from its own save.
-/

namespace Storyworld

/-- What a rule makes of a state before it is checked. -/
def MigrationRule.carry (r : MigrationRule) (c : Catalog) (s : State) : State :=
  let s := r.renameState s
  let s := if r.discardMissing then s.discardMissing c else s
  match r.relocate with
  | some l => if c.locations.contains s.location then s else s.setLocation l
  | none => s

/-- Takes a state that was carried over, or refuses it. -/
def State.vet (c : Catalog) (s : State) : Except Mismatch State :=
  match s.dangling c with
  | [] =>
    if (c.actsThrough s.act).map (·.id) = s.reachedActs then .ok s else .error (.history s.act)
  | keys => .error (.dangling keys)

theorem State.vet_eq_ok_iff {c : Catalog} {s t : State} :
    s.vet c = .ok t ↔ t = s ∧ t.Declared c ∧ t.ActsLead c := by
  rw [← State.dangling_eq_nil_iff]
  unfold vet State.ActsLead
  constructor
  · intro h
    split at h
    · rename_i hnone
      split at h
      · rename_i hacts
        cases h
        exact ⟨rfl, hnone, hacts.symm⟩
      · cases h
    · cases h
  · rintro ⟨rfl, hnone, hacts⟩
    rw [hnone]
    exact if_pos hacts.symm

namespace Save

variable {c : Catalog} {s t : State} {save : Save} {r : MigrationRule}

theorem migrate_eq_ok_iff :
    migrate c r s = .ok t ↔ t = r.carry c s ∧ t.Declared c ∧ t.ActsLead c :=
  State.vet_eq_ok_iff (s := r.carry c s)

theorem mapError_eq_ok_iff {ε ε' α : Type} {x : Except ε α} {f : ε → ε'} {a : α} :
    x.mapError f = .ok a ↔ x = .ok a := by
  cases x <;> simp [Except.mapError]

/-- When a save is restored, and to what. -/
theorem restore_eq_ok_iff :
    save.restore c = .ok t ↔ save.format = currentFormat ∧ t.Declared c ∧
      (save.catalogVersion = c.version ∧ t = save.state ∨
        save.catalogVersion ≠ c.version ∧ ∃ r, c.migrationFrom? save.catalogVersion = some r ∧
          t = r.carry c save.state ∧ t.ActsLead c) := by
  by_cases hformat : save.format = currentFormat
  · by_cases hversion : save.catalogVersion = c.version
    · rw [restore_of_version_eq hformat hversion]
      constructor
      · rintro ⟨rfl, hdeclared⟩
        exact ⟨hformat, hdeclared, .inl ⟨hversion, rfl⟩⟩
      · rintro ⟨-, hdeclared, ⟨-, rfl⟩ | ⟨hne, -⟩⟩
        · exact ⟨rfl, hdeclared⟩
        · exact absurd hversion hne
    · unfold restore
      rw [if_neg (not_not.2 hformat), if_neg hversion]
      cases hr : c.migrationFrom? save.catalogVersion with
      | none => simp [hversion]
      | some r =>
        dsimp only
        rw [mapError_eq_ok_iff, migrate_eq_ok_iff]
        simp only [hformat, hversion, Option.some.injEq, exists_eq_left']
        tauto
  · unfold restore
    rw [if_pos hformat]
    exact iff_of_false nofun fun h => hformat h.1

/-- A restored state never dangles, in whatever part of it. One of another version has come through
all acts up to the current one. Its own save is restored to it. -/
theorem restored_sound (h : save.restore c = .ok t) :
    t.Declared c ∧ (save.catalogVersion ≠ c.version → t.ActsLead c) ∧
      ∀ id now, (capture id now c t).restore c = .ok t := by
  obtain ⟨-, hdeclared, hcame⟩ := restore_eq_ok_iff.1 h
  refine ⟨hdeclared, fun hne => ?_, fun id now => restore_capture_eq_ok_iff.2 ⟨rfl, hdeclared⟩⟩
  obtain ⟨hsame, -⟩ | ⟨-, r, -, -, hacts⟩ := hcame
  · exact absurd hsame hne
  · exact hacts

end Save

/-- A barn with a lamp and a torch, in which a cat comes to purr. -/
def barnDoc : WorldDocument where
  world := some { title := "Barn", version := "1" }
  start := some { location := "barn", inventory := ["map"] }
  locations := [{ id := "barn", name := "Barn" }, { id := "loft", name := "Loft" }]
  items := [{ id := "lamp", name := "lamp", location := some "barn" },
    { id := "torch", name := "torch", location := some "barn" }, { id := "map", name := "map" }]
  characters := [{ id := "cat", name := "Cat", location := some "barn" }]
  exits := [{ id := "ladder", origin := "barn", destination := "loft", direction := some "up" }]
  beats := [{ id := "purr", effects := [.setCounter "cat" "mood" 5] }]
  acts := [{ id := "day", locations := ["barn", "loft"] }]

def barn : Catalog := .draft barnDoc

def rebuilding : MigrationRule where
  version := "1"
  rename := { locations := .ofList [("barn", "hall")], items := .ofList [("lamp", "lantern")] }
  relocate := some "hall"
  discardMissing := true

/-- The barn rebuilt, under other names and with a rope in it. -/
def rebuiltBarnDoc : WorldDocument where
  world := some { title := "Barn", version := "2" }
  start := some { location := "hall", inventory := ["map"] }
  locations := [{ id := "hall", name := "Hall" }, { id := "loft", name := "Loft" }]
  items := [{ id := "lantern", name := "lantern", location := some "hall" },
    { id := "torch", name := "torch", location := some "hall" }, { id := "map", name := "map" },
    { id := "rope", name := "rope", location := some "loft" }]
  characters := [{ id := "cat", name := "Cat", location := some "hall" }]
  exits := [{ id := "ladder", origin := "hall", destination := "loft", direction := some "up" }]
  beats := [{ id := "purr", effects := [.setCounter "cat" "mood" 5] }]
  acts := [{ id := "day", locations := ["hall", "loft"] }]
  migrations := [rebuilding]

def rebuiltBarn : Catalog := .draft rebuiltBarnDoc

/-- A save of the barn that refers to much that there never was. -/
def tornSave : Save where
  format := 1
  sessionId := .zero
  catalogVersion := "1"
  savedAt := .epoch
  state := {
    turn := 9
    location := "cellar"
    inventory := ["ghost", "lamp"]
    flags := .ofList [("dark", .bool true)]
    counters := .ofList [("cat", .ofList [("mood", 5)]), ("dog", .ofList [("mood", 1)])]
    overrides := .ofList [(.item "torch", .item (some (.location "cellar")) none),
      (.item "lamp", .item (some .carried) none), (.exit "shaft", .exit (some true) none none)]
    act := "day"
    reachedActs := ["day"]
    completedSpokes := .ofList ["west"]
    firedBeats := ["howl", "purr"]
    latchedBeats := .ofList ["howl"]
    usedInteractions := .ofList ["dig"]
    victory := some "peace" }

/-- On the rebuilt barn the save is restored to what there is, in the hall. -/
theorem torn_save_mended :
    let t : State := {
      turn := 9
      location := "hall"
      inventory := ["lantern"]
      flags := .ofList [("dark", .bool true)]
      counters := .ofList [("cat", .ofList [("mood", 5)])]
      overrides := .ofList [(.item "lantern", .item (some .carried) none)]
      act := "day"
      reachedActs := ["day"]
      completedSpokes := .empty
      firedBeats := ["purr"]
      latchedBeats := .empty
      usedInteractions := .empty
      victory := none }
    tornSave.restore rebuiltBarn = .ok t ∧ tornSave.catalogVersion ≠ rebuiltBarn.version ∧
      t.Declared rebuiltBarn ∧ t.ActsLead rebuiltBarn ∧
      (Save.capture .zero .epoch rebuiltBarn t).restore rebuiltBarn = .ok t := by
  intro t
  have hrestored : tornSave.restore rebuiltBarn = .ok t := by decide +kernel
  have hother : tornSave.catalogVersion ≠ rebuiltBarn.version := by decide
  obtain ⟨hdeclared, hacts, hagain⟩ := Save.restored_sound hrestored
  exact ⟨hrestored, hother, hdeclared, hacts hother, hagain .zero .epoch⟩

end Storyworld
