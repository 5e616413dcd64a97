import Storyworld.Proofs.Carryover

/-!
# Discarding

A rule that drops what there is no more, and puts the player somewhere, leaves nothing in a state
that could dangle but the acts (`MigrationRule.declared_carry_iff_of_discards`), and drops nothing
else (`MigrationRule.Salvages`). Whether a save comes over is then a question of its acts alone.
-/

namespace Storyworld

theorem SortedSet.filter_ofList {ks : List EntityId} {keep : EntityId → Bool} :
    (SortedSet.ofList ks).filter keep = .ofList (ks.filter keep) :=
  SortedSet.ext_mem fun k => by
    rw [SortedSet.mem_filter, SortedSet.mem_ofList, SortedSet.mem_ofList, List.mem_filter]

/-- The act is declared before the other. -/
def Catalog.Precedes (c : Catalog) (a b : EntityId) : Prop :=
  ∃ i j, c.acts.position? a = some i ∧ c.acts.position? b = some j ∧ i < j

/-- The state is what there is in a catalog of another one under the names that a rule gives, its
lists in their order. -/
structure MigrationRule.Salvages (r : MigrationRule) (c : Catalog) (s t : State) : Prop where
  turn : t.turn = s.turn
  inventory : t.inventory =
    (s.inventory.map (r.renamed .item)).filter fun i => c.contains (.item i)
  act : t.act = r.renamed .act s.act
  reachedActs : t.reachedActs = s.reachedActs.map (r.renamed .act)
  completedSpokes : t.completedSpokes = .ofList
    ((s.completedSpokes.toList.map (r.renamed .spoke)).filter fun x => c.contains (.spoke x))
  firedBeats : t.firedBeats =
    (s.firedBeats.map (r.renamed .beat)).filter fun b => c.contains (.beat b)
  latchedBeats : t.latchedBeats = .ofList
    ((s.latchedBeats.toList.map (r.renamed .beat)).filter fun b => c.contains (.beat b))
  usedInteractions : t.usedInteractions = .ofList ((s.usedInteractions.toList.map
    (r.renamed .interaction)).filter fun i => c.contains (.interaction i))
  victory : t.victory = s.victory.filter fun v => c.contains (.victory v)

variable {c : Catalog} {r : MigrationRule} {s t : State} {a : EntityId} {l : EntityId}

namespace Catalog

theorem Accepted.relocation_declared (hc : c.Accepted) {version : String}
    (hr : c.migrationFrom? version = some r) (hl : r.relocate = some l) :
    c.contains (.location l) = true := by
  have hchecked := hc.passes.migrations r (List.mem_of_find?_eq_some hr)
  simp only [checkMigration, List.append_eq_nil_iff] at hchecked
  exact contains_of_checkKey? hchecked.1.2 (by rw [hl]; rfl)

/-- Some act leads to a declared act, if only itself, unless it comes before the first of the
session. -/
theorem contains_act_iff :
    c.contains (.act a) = true ↔
      (c.actsThrough a).map (·.id) ≠ [] ∨ c.Precedes a c.initialAct := by
  rw [ne_eq, List.map_eq_nil_iff]
  cases hlast : c.acts.position? a with
  | none =>
    have hmissing : c.contains (.act a) ≠ true := fun ha => by
      obtain ⟨i, hi⟩ := exists_position? ha
      rw [hlast] at hi
      cases hi
    have hnone : c.actsThrough a = [] := by
      unfold actsThrough
      rw [hlast]
    refine iff_of_false hmissing ?_
    rintro (hled | ⟨i, j, hi, -⟩)
    · exact hled hnone
    · rw [hlast] at hi
      cases hi
  | some last =>
    have hdeclared : c.contains (.act a) = true := by
      obtain ⟨hlt, hid, -⟩ := List.findIdx?_eq_some_iff_getElem.1 hlast
      exact List.any_eq_true.2 ⟨_, List.getElem_mem hlt, hid⟩
    refine iff_of_true hdeclared (or_iff_not_imp_right.2 fun hlate hnone => hlate ?_)
    have hlt : last < c.acts.toList.length := Table.lt_size_of_position? hlast
    unfold actsThrough at hnone
    rw [hlast] at hnone
    simp only [List.drop_eq_nil_iff, List.length_take] at hnone
    cases hfirst : c.acts.position? c.initialAct with
    | none =>
      rw [hfirst, Option.getD_none] at hnone
      omega
    | some first =>
      rw [hfirst, Option.getD_some] at hnone
      exact ⟨last, first, hlast, hfirst, by omega⟩

end Catalog

namespace MigrationRule

theorem carry_of_discards (hd : r.discardMissing = true) (hl : r.relocate = some l) :
    r.carry c s = { (r.renameState s).discardMissing c with
      location := if c.contains (.location (r.renamed .location s.location)) then
        r.renamed .location s.location else l } := by
  have hplace : c.contains (.location (r.renamed .location s.location)) =
      c.locations.contains ((r.renameState s).discardMissing c).location := rfl
  unfold carry
  dsimp only
  rw [if_pos hd, hl, hplace]
  dsimp only
  split <;> rfl

theorem salvages_carry (hd : r.discardMissing = true) (hl : r.relocate = some l) :
    r.Salvages c s (r.carry c s) := by
  rw [carry_of_discards hd hl]
  exact ⟨rfl, rfl, rfl, rfl, SortedSet.filter_ofList, rfl, SortedSet.filter_ofList,
    SortedSet.filter_ofList, rfl⟩

/-- Nothing dangles after such a rule but acts. -/
theorem declared_carry_iff_of_discards (hd : r.discardMissing = true) (hl : r.relocate = some l)
    (hdeclared : c.contains (.location l) = true) :
    (r.carry c s).Declared c ↔ c.contains (.act (r.renamed .act s.act)) = true ∧
      ∀ a ∈ s.reachedActs.map (r.renamed .act), c.contains (.act a) = true := by
  refine ⟨fun h => ?_, fun ⟨hact, hreached⟩ => ?_⟩
  · have hsalvaged := salvages_carry (c := c) (s := s) hd hl
    rw [← hsalvaged.act, ← hsalvaged.reachedActs]
    exact ⟨h.act, h.reached⟩
  · have hoverrides : ∀ key o, ((r.renameState s).discardMissing c).overrides.get? key = some o →
        c.contains key = true ∧ ∀ k ∈ o.targets, c.contains k = true := by
      intro key o ho
      have hkept := (SortedMap.get?_filter _ _ _).symm.trans ho
      rw [Option.filter_eq_some_iff, Bool.and_eq_true, List.all_eq_true] at hkept
      exact hkept.2
    have hcounters : ∀ p own, ((r.renameState s).discardMissing c).counters.get? p = some own →
        c.contains (.character p) = true := by
      intro p own hown
      have hkept := (SortedMap.get?_filter _ _ _).symm.trans hown
      exact (Option.filter_eq_some_iff.1 hkept).2
    rw [carry_of_discards hd hl]
    refine ⟨?_, fun i hi => (List.mem_filter.1 hi).2, hcounters, hoverrides, hact, hreached,
      fun b hb => (List.mem_filter.1 hb).2, fun b hb => (SortedSet.mem_filter.1 hb).2,
      fun x hx => (SortedSet.mem_filter.1 hx).2, fun i hi => (SortedSet.mem_filter.1 hi).2,
      fun v hv => (Option.filter_eq_some_iff.1 hv).2⟩
    dsimp only
    split
    · assumption
    · exact hdeclared

end MigrationRule

/-- A save comes over by such a rule exactly if its acts are those that lead to its act, which may
be none only if that act comes before the first of the session; and all of it comes over that there
is. -/
theorem Save.restored_by_discarding {save : Save} (hc : c.Accepted)
    (hformat : save.format = currentFormat) (hother : save.catalogVersion ≠ c.version)
    (hr : c.migrationFrom? save.catalogVersion = some r) (hd : r.discardMissing = true)
    (hl : r.relocate = some l) :
    let act := r.renamed .act save.state.act
    let reached := save.state.reachedActs.map (r.renamed .act)
    ((∃ t, save.restore c = .ok t) ↔ reached = (c.actsThrough act).map (·.id) ∧
      (reached ≠ [] ∨ c.Precedes act c.initialAct)) ∧
      ∀ t, save.restore c = .ok t → r.Salvages c save.state t := by
  intro act reached
  have hsalvaged : r.Salvages c save.state (r.carry c save.state) :=
    MigrationRule.salvages_carry hd hl
  have hdeclared := MigrationRule.declared_carry_iff_of_discards (s := save.state) hd hl
    (hc.relocation_declared hr hl)
  have hrestored : ∀ t, save.restore c = .ok t ↔ t = r.carry c save.state ∧
      c.contains (.act act) = true ∧ reached = (c.actsThrough act).map (·.id) := by
    intro t
    rw [restore_eq_ok_iff]
    constructor
    · rintro ⟨-, ht, ⟨hsame, -⟩ | ⟨-, r', hr', rfl, hacts⟩⟩
      · exact absurd hsame hother
      · obtain rfl := Option.some.inj (hr'.symm.trans hr)
        refine ⟨rfl, (hdeclared.1 ht).1, ?_⟩
        unfold State.ActsLead at hacts
        rwa [hsalvaged.act, hsalvaged.reachedActs] at hacts
    · rintro ⟨rfl, hact, hreached⟩
      have hall : ∀ a ∈ reached, c.contains (.act a) = true :=
        fun a ha => Catalog.contains_of_mem_actsThrough (hreached ▸ ha)
      refine ⟨hformat, hdeclared.2 ⟨hact, hall⟩, .inr ⟨hother, r, hr, rfl, ?_⟩⟩
      unfold State.ActsLead
      rwa [hsalvaged.act, hsalvaged.reachedActs]
  refine ⟨?_, fun t ht => (hrestored t).1 ht |>.1 ▸ hsalvaged⟩
  constructor
  · rintro ⟨t, ht⟩
    obtain ⟨-, hact, hacts⟩ := (hrestored t).1 ht
    have hled := Catalog.contains_act_iff.1 hact
    rw [← hacts] at hled
    exact ⟨hacts, hled⟩
  · rintro ⟨hacts, hled⟩
    rw [hacts] at hled
    exact ⟨_, (hrestored _).2 ⟨rfl, Catalog.contains_act_iff.2 hled, hacts⟩⟩

/-- All that there is of the torn save comes over to the rebuilt barn. -/
theorem torn_save_salvaged :
    ∃ t, rebuiltBarn.Accepted ∧ tornSave.format = Save.currentFormat ∧
      tornSave.catalogVersion ≠ rebuiltBarn.version ∧
      rebuiltBarn.migrationFrom? tornSave.catalogVersion = some rebuilding ∧
      rebuilding.discardMissing = true ∧ rebuilding.relocate = some "hall" ∧
      tornSave.restore rebuiltBarn = .ok t ∧
      rebuilding.Salvages rebuiltBarn tornSave.state t := by
  have haccepted : rebuiltBarn.Accepted :=
    ⟨rebuiltBarnDoc, Catalog.ofDocument_eq_ok_iff.2 ⟨by decide, rfl⟩⟩
  have hother : tornSave.catalogVersion ≠ rebuiltBarn.version := by decide
  have hrule : rebuiltBarn.migrationFrom? tornSave.catalogVersion = some rebuilding := by decide
  have hacts : tornSave.state.reachedActs.map (rebuilding.renamed .act) =
      (rebuiltBarn.actsThrough (rebuilding.renamed .act tornSave.state.act)).map (·.id) := by decide
  obtain ⟨hiff, hall⟩ := Save.restored_by_discarding haccepted rfl hother hrule rfl rfl
  obtain ⟨t, ht⟩ := hiff.2 ⟨hacts, .inl (by decide)⟩
  exact ⟨t, haccepted, rfl, hother, hrule, rfl, rfl, ht, hall t ht⟩

/-- How the theatre takes saves of its first version over. -/
def reopening : MigrationRule where
  version := "1"
  relocate := some "stage"
  discardMissing := true

/-- A theatre in which the session starts after the prologue. -/
def theatreDoc : WorldDocument where
  world := some { title := "Theatre", version := "2" }
  start := some { location := "stage", act := some "play" }
  locations := [{ id := "stage", name := "Stage" }]
  acts := [{ id := "prologue", locations := ["stage"] }, { id := "play", locations := ["stage"] }]
  migrations := [reopening]

def theatre : Catalog := .draft theatreDoc

/-- A save of the theatre that is in the prologue and has reached no act. -/
def prologueSave : Save where
  format := 1
  sessionId := .zero
  catalogVersion := "1"
  savedAt := .epoch
  state := {
    turn := 3
    location := "stage"
    inventory := []
    flags := .empty
    counters := .empty
    overrides := .empty
    act := "prologue"
    reachedActs := []
    completedSpokes := .empty
    firedBeats := []
    latchedBeats := .empty
    usedInteractions := .empty
    victory := none }

/-- The save comes over although no act that was reached leads to the prologue, and there the player
stands in a place that is out of reach. -/
theorem prologue_led_to_by_nothing :
    let s := prologueSave.state
    theatre.Accepted ∧ prologueSave.format = Save.currentFormat ∧
      prologueSave.catalogVersion ≠ theatre.version ∧
      theatre.migrationFrom? prologueSave.catalogVersion = some reopening ∧
      reopening.discardMissing = true ∧ reopening.relocate = some "stage" ∧
      prologueSave.restore theatre = .ok s ∧ s.reachedActs.map (reopening.renamed .act) = [] ∧
      (View.mk theatre s).reachableLocations = .empty ∧
      ¬((∃ t, prologueSave.restore theatre = .ok t) ↔
        s.reachedActs.map (reopening.renamed .act) =
            (theatre.actsThrough (reopening.renamed .act s.act)).map (·.id) ∧
          s.reachedActs.map (reopening.renamed .act) ≠ []) := by
  intro s
  have haccepted : theatre.Accepted :=
    ⟨theatreDoc, Catalog.ofDocument_eq_ok_iff.2 ⟨by decide, rfl⟩⟩
  have hrestored : prologueSave.restore theatre = .ok s := by decide +kernel
  exact ⟨haccepted, rfl, by decide, by decide, rfl, rfl, hrestored, rfl, by decide +kernel,
    fun h => (h.1 ⟨s, hrestored⟩).2 rfl⟩

end Storyworld
