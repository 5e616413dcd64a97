import Storyworld.Proofs.Accepted
import Storyworld.Proofs.Foresight
import Storyworld.Proofs.Runs

/-!
# The chance to win

The check of a plan looks ahead from the state that its own effects lead to. What a turn does after
that is not looked at again. The turn counter, the latches and the spokes that are recorded leave
the chance to win as it is: states that differ in these alone are `Twins`, and their outlooks learn
the same but for spokes that are satisfied anyway. Nor does a victory that is recorded change it.
What is left are the mark on an interaction that runs once, the beats and the gate
(`canWin_play_or_forfeits`).
-/

namespace Storyworld

/-- The states differ in the turn counter, the latches and the recorded spokes alone, and the same
spokes are satisfied. -/
structure Twins (c : Catalog) (s t : State) : Prop where
  alike : ∃ turn latched spokes,
    t = { s with turn := turn, latchedBeats := latched, completedSpokes := spokes }
  satisfied : ∀ d, (View.mk c t).spokeSatisfied d = (View.mk c s).spokeSatisfied d

namespace Outlook

/-- The outlooks differ in spokes that are satisfied in the view alone. -/
structure Twin (v : View) (o o' : Outlook) : Prop where
  alike : ∃ spokes, o' = { o with spokes := spokes }
  spokes : ∀ d, (o'.spokes.contains d || v.spokeSatisfied d) =
    (o.spokes.contains d || v.spokeSatisfied d)

end Outlook

namespace Twins

variable {c : Catalog} {s t : State}

theorem advanceTurn (s : State) : Twins c s s.advanceTurn := ⟨⟨_, _, _, rfl⟩, fun _ => rfl⟩

theorem setLatches (s : State) (ls : List (EntityId × Bool)) : Twins c s (s.setLatches ls) := by
  obtain ⟨_, hsame⟩ := s.exists_setLatches_eq ls
  rw [hsame]
  exact ⟨⟨_, _, _, rfl⟩, fun _ => rfl⟩

theorem foldl_completeSpoke (s : State) (ds : List EntityId) :
    ds.foldl State.completeSpoke s =
      { s with completedSpokes := s.completedSpokes.insertAll ds } := by
  induction ds generalizing s with
  | nil => rfl
  | cons d ds ih => exact ih (s.completeSpoke d)

theorem eval_spoke (hc : c.Accepted) {d : Spoke} (hd : d ∈ c.spokes.toList)
    (f g : EntityId → Bool) :
    d.condition.eval ((View.mk c s).answer f) = d.condition.eval ((View.mk c s).answer g) := by
  refine Condition.eval_congr _ fun a ha => ?_
  have hnone := hc.spoke_atoms hd ha
  cases a with
  | spoke x => cases hnone
  | _ => rfl

theorem satisfied_of_newSpokes (hc : c.Accepted) {x : EntityId}
    (hx : x ∈ (View.mk c s).newSpokes) : (View.mk c s).spokeSatisfied x = true := by
  obtain ⟨d, hd, hholds⟩ := of_mem_newSpokes hx
  refine Bool.or_eq_true_iff.2 (.inr ((Option.any_eq_true _ _).2 ⟨d, hd, ?_⟩))
  exact (eval_spoke hc (Table.mem_of_get? hd) _ _).trans hholds

theorem recordSpokes (hc : c.Accepted) (s : State) : Twins c s (s.recordSpokes c) := by
  unfold State.recordSpokes
  have hnew := fun x => satisfied_of_newSpokes (s := s) hc (x := x)
  generalize (View.mk c s).newSpokes = ds at hnew
  rw [foldl_completeSpoke]
  refine ⟨⟨_, _, _, rfl⟩, fun x => ?_⟩
  have hcondition : ∀ d, c.spokes.get? x = some d →
      d.condition.eval ((View.mk c s).answer (s.completedSpokes.insertAll ds).contains) =
        d.condition.eval ((View.mk c s).answer s.completedSpokes.contains) := fun d hd =>
    eval_spoke hc (Table.mem_of_get? hd) _ _
  by_cases hx : x ∈ ds
  · refine Eq.trans (Bool.or_eq_true_iff.2 (.inl ?_)) (hnew x hx).symm
    exact SortedSet.mem_insertAll.2 (.inr hx)
  · have hrecorded :
        (s.completedSpokes.insertAll ds).contains x = s.completedSpokes.contains x := by
      rw [Bool.eq_iff_iff]
      exact SortedSet.mem_insertAll.trans (or_iff_left hx)
    show ((s.completedSpokes.insertAll ds).contains x || _) = (s.completedSpokes.contains x || _)
    rw [hrecorded]
    cases hd : c.spokes.get? x with
    | none => rfl
    | some d => exact congrArg _ (hcondition d hd)

/-! ### What may hold -/

variable (h : Twins c s t)
include h

theorem holdsAtom : (View.mk c t).holdsAtom = (View.mk c s).holdsAtom := by
  funext a
  cases a with
  | spoke d => exact h.satisfied d
  | _ =>
    obtain ⟨_, _, _, rfl⟩ := h.alike
    rfl

theorem holds (x : Condition) : (View.mk c t).holds x = (View.mk c s).holds x := by
  unfold View.holds
  rw [h.holdsAtom]

variable {o o' : Outlook} (ho : o.Twin ⟨c, s⟩ o')
include ho

theorem mayInSpoke : o'.mayInSpoke ⟨c, t⟩ = o.mayInSpoke ⟨c, s⟩ := by
  funext a
  unfold Outlook.mayInSpoke
  rw [h.holdsAtom]
  obtain ⟨spokes, rfl⟩ := ho.alike
  cases a with
  | spoke d =>
    have hspokes := ho.spokes d
    rw [Bool.or_comm, Bool.or_comm (o.spokes.contains d)] at hspokes
    exact hspokes
  | _ =>
    obtain ⟨_, _, _, rfl⟩ := h.alike
    rfl

theorem mayAtom : o'.mayAtom ⟨c, t⟩ = o.mayAtom ⟨c, s⟩ := by
  funext a
  unfold Outlook.mayAtom
  rw [h.holdsAtom, h.mayInSpoke ho]
  obtain ⟨spokes, rfl⟩ := ho.alike
  cases a with
  | spoke d =>
    have hspokes := ho.spokes d
    rw [Bool.or_comm, Bool.or_comm (o.spokes.contains d)] at hspokes
    unfold Outlook.mayLater
    dsimp only
    rw [← Bool.or_assoc, ← Bool.or_assoc]
    exact congrArg (· || _) hspokes
  | _ =>
    obtain ⟨_, _, _, rfl⟩ := h.alike
    rfl

theorem may : o'.may ⟨c, t⟩ = o.may ⟨c, s⟩ := by
  unfold Outlook.may
  rw [h.mayAtom ho]

theorem may? : o'.may? ⟨c, t⟩ = o.may? ⟨c, s⟩ := by
  funext x
  unfold Outlook.may?
  rw [h.may ho]

theorem mayPass : o'.mayPass ⟨c, t⟩ = o.mayPass ⟨c, s⟩ := by
  funext e
  unfold Outlook.mayPass
  rw [h.may? ho]
  obtain ⟨spokes, rfl⟩ := ho.alike
  rfl

theorem mayRun : o'.mayRun ⟨c, t⟩ = o.mayRun ⟨c, s⟩ := by
  funext d
  unfold Outlook.mayRun
  rw [h.may? ho]
  obtain ⟨spokes, rfl⟩ := ho.alike
  obtain ⟨_, _, _, rfl⟩ := h.alike
  rfl

theorem gateMayHold : o'.gateMayHold ⟨c, t⟩ = o.gateMayHold ⟨c, s⟩ := by
  funext a
  unfold Outlook.gateMayHold
  rw [h.may ho, h.mayAtom ho]

end Twins

/-! ### Exploring -/

namespace Outlook

variable {v w : View} {o o' : Outlook}

namespace Twin

theorem learn (h : o.Twin v o') (f : Fact) : (o.learn f).Twin v (o'.learn f) := by
  obtain ⟨⟨spokes, rfl⟩, hspokes⟩ := h
  cases f with
  | spoke d =>
    refine ⟨⟨spokes.insert d, rfl⟩, fun x => ?_⟩
    have hx := hspokes x
    show ((spokes.insert d).contains x || _) = ((o.spokes.insert d).contains x || _)
    by_cases hxd : x = d
    · subst hxd
      simp
    · simpa [hxd] using hx
  | _ => exact ⟨⟨spokes, rfl⟩, hspokes⟩

theorem learnAll (h : o.Twin v o') (fs : List Fact) : (o.learnAll fs).Twin v (o'.learnAll fs) := by
  induction fs generalizing o o' with
  | nil => exact h
  | cons f fs ih => exact ih (h.learn f)

theorem furthestAct (h : o.Twin v o') : o'.furthestAct = o.furthestAct := by
  obtain ⟨⟨spokes, rfl⟩, -⟩ := h
  rfl

theorem beats (h : o.Twin v o') : o'.beats = o.beats := by
  obtain ⟨⟨spokes, rfl⟩, -⟩ := h
  rfl

theorem openActs (h : o.Twin v o') (hw : w.catalog = v.catalog) (n : Nat) :
    (o.openActs v n).Twin v (o'.openActs w n) := by
  induction n generalizing o o' with
  | zero => exact h
  | succ n ih =>
    rw [openActs_succ, openActs_succ, hw, h.furthestAct]
    have hact := h.learn (.act (o.furthestAct + 1))
    cases v.catalog.acts.toList[o.furthestAct + 1]? with
    | none => exact hact
    | some a => exact ih (hact.learnAll _)

theorem openThrough (h : o.Twin v o') (hw : w.catalog = v.catalog) (i : Nat) :
    (o.openThrough v i).Twin v (o'.openThrough w i) := by
  unfold Outlook.openThrough
  rw [h.furthestAct]
  exact h.openActs hw _

end Twin
end Outlook

namespace Twins

variable {c : Catalog} {s t : State} (h : Twins c s t)
include h

theorem facts : (View.mk c t).facts = (View.mk c s).facts := by
  obtain ⟨_, _, _, rfl⟩ := h.alike
  rfl

theorem initial : (Outlook.initial ⟨c, s⟩).Twin ⟨c, s⟩ (.initial ⟨c, t⟩) := by
  -- What is recorded in either state is satisfied in both.
  have hrecorded : ∀ u, (∀ d, (View.mk c u).spokeSatisfied d = (View.mk c s).spokeSatisfied d) →
      ∀ d, (u.completedSpokes.toList.contains d || (View.mk c s).spokeSatisfied d) =
        (View.mk c s).spokeSatisfied d := by
    intro u hu d
    cases hd : u.completedSpokes.toList.contains d with
    | false => rfl
    | true =>
      have hd := SortedSet.mem_toList.1 (List.contains_iff_mem.1 hd)
      exact ((hu d).symm.trans (Bool.or_eq_true_iff.2 (.inl hd))).symm
  refine ⟨?_, fun d => ?_⟩
  · obtain ⟨_, _, spokes, rfl⟩ := h.alike
    exact ⟨spokes.toList, rfl⟩
  · exact (hrecorded t h.satisfied d).trans (hrecorded s (fun _ => rfl) d).symm

variable {o o' : Outlook} (ho : o.Twin ⟨c, s⟩ o')
include ho

theorem absorb (e : Effect) : (o.absorb ⟨c, s⟩ e).Twin ⟨c, s⟩ (o'.absorb ⟨c, t⟩ e) := by
  obtain ⟨a, rfl⟩ | hact := e.eq_advanceAct_or_ne
  · unfold Outlook.absorb
    dsimp only
    cases c.acts.position? a with
    | none => exact ho
    | some i =>
      exact ho.openThrough (w := ⟨c, t⟩) rfl i
  · rw [Outlook.absorb_eq_learnAll hact, Outlook.absorb_eq_learnAll hact, h.facts]
    exact ho.learnAll _

theorem absorbAll (es : List Effect) :
    (o.absorbAll ⟨c, s⟩ es).Twin ⟨c, s⟩ (o'.absorbAll ⟨c, t⟩ es) := by
  induction es generalizing o o' with
  | nil => exact ho
  | cons e es ih => exact ih (h.absorb ho e)

theorem walkExits : (o.walkExits ⟨c, s⟩).Twin ⟨c, s⟩ (o'.walkExits ⟨c, t⟩) := by
  unfold Outlook.walkExits
  rw [h.mayPass ho, Outlook.learnAll_visit, Outlook.learnAll_visit]
  have hlearn := fun ls : List EntityId => ho.learnAll (ls.map .visit)
  obtain ⟨spokes, rfl⟩ := ho.alike
  obtain ⟨_, _, _, rfl⟩ := h.alike
  exact hlearn _

theorem collectItems : (o.collectItems ⟨c, s⟩).Twin ⟨c, s⟩ (o'.collectItems ⟨c, t⟩) := by
  have hlearn := fun lying placed : List EntityId =>
    (ho.learnAll (lying.map .gain)).learnAll (placed.map .gain)
  simp only [← Outlook.learnAll_gain] at hlearn
  obtain ⟨spokes, rfl⟩ := ho.alike
  obtain ⟨_, _, _, rfl⟩ := h.alike
  exact hlearn _ _

theorem newInteractions : o'.newInteractions ⟨c, t⟩ = o.newInteractions ⟨c, s⟩ := by
  unfold Outlook.newInteractions
  rw [h.mayRun ho]
  obtain ⟨spokes, rfl⟩ := ho.alike
  obtain ⟨_, _, _, rfl⟩ := h.alike
  rfl

theorem newBeats : o'.newBeats ⟨c, t⟩ = o.newBeats ⟨c, s⟩ := by
  unfold Outlook.newBeats
  rw [h.may ho]
  obtain ⟨spokes, rfl⟩ := ho.alike
  obtain ⟨_, _, _, rfl⟩ := h.alike
  rfl

theorem runInteractions : (o.runInteractions ⟨c, s⟩).Twin ⟨c, s⟩ (o'.runInteractions ⟨c, t⟩) := by
  unfold Outlook.runInteractions
  dsimp only
  rw [h.newInteractions ho, Outlook.learnAll_ran, Outlook.learnAll_ran]
  exact (h.absorbAll ho _).learnAll _

theorem runBeats : (o.runBeats ⟨c, s⟩).Twin ⟨c, s⟩ (o'.runBeats ⟨c, t⟩) := by
  unfold Outlook.runBeats
  dsimp only
  rw [h.newBeats ho, Outlook.learnAll_beat, Outlook.learnAll_beat]
  exact (h.absorbAll ho _).learnAll _

theorem throughGate (a : Act) : (o.throughGate ⟨c, s⟩ a).Twin ⟨c, s⟩ (o'.throughGate ⟨c, t⟩ a) := by
  unfold Outlook.throughGate Outlook.freshGateBeat?
  rw [ho.beats]
  dsimp only
  split
  · exact (h.absorbAll ho _).learn _
  · exact ho

theorem passGates : (o.passGates ⟨c, s⟩).Twin ⟨c, s⟩ (o'.passGates ⟨c, t⟩) := by
  by_cases hopen : ∃ a, c.acts.toList[o.furthestAct]? = some a ∧
      o.gateMayHold ⟨c, s⟩ a = true ∧ (c.nextAct? a.id).isSome = true
  · obtain ⟨a, ha, hmay, hnext⟩ := hopen
    have ha' : c.acts.toList[o'.furthestAct]? = some a := by
      rw [ho.furthestAct]
      exact ha
    have hmay' : o'.gateMayHold ⟨c, t⟩ a = true := by
      rw [h.gateMayHold ho]
      exact hmay
    rw [Outlook.passGates_of_gateMayHold (v := ⟨c, s⟩) ha hmay hnext,
      Outlook.passGates_of_gateMayHold (v := ⟨c, t⟩) ha' hmay' hnext]
    exact (h.throughGate ho a).openActs (w := ⟨c, t⟩) rfl 1
  · rw [Outlook.passGates_eq_self (v := ⟨c, s⟩) hopen, Outlook.passGates_eq_self (v := ⟨c, t⟩)]
    · exact ho
    · rw [ho.furthestAct, h.gateMayHold ho]
      exact hopen

theorem round : (o.round ⟨c, s⟩).Twin ⟨c, s⟩ (o'.round ⟨c, t⟩) :=
  h.passGates (h.runBeats (h.runInteractions (h.collectItems (h.walkExits ho))))

theorem settle (n : Nat) : (o.settle ⟨c, s⟩ n).Twin ⟨c, s⟩ (o'.settle ⟨c, t⟩ n) := by
  induction n generalizing o o' with
  | zero => exact ho
  | succ n ih =>
    rw [Outlook.settle_succ, Outlook.settle_succ]
    exact ih (h.round ho)

omit ho in
theorem explore : (Outlook.explore ⟨c, s⟩).Twin ⟨c, s⟩ (.explore ⟨c, t⟩) := h.settle h.initial _

omit ho in
/-- Twins have the same chance to win. -/
theorem canWin : (View.mk c t).canWin = (View.mk c s).canWin := by
  unfold View.canWin
  dsimp only
  rw [h.may h.explore, funext h.holds]
  obtain ⟨_, _, _, rfl⟩ := h.alike
  rfl

end Twins

/-! ### Turns -/

section
variable {c : Catalog} {s t : State} {p : Plan} {done : Commit}

/-- The effects of an approved plan keep the chance to win. -/
theorem View.canWin_of_checkWinnable (h : (View.mk c s).checkWinnable p.effects = none)
    (hap : s.applyAll c p.effects = .ok t) (hcan : (View.mk c s).canWin = true) :
    (View.mk c t).canWin = true := by
  unfold View.checkWinnable at h
  dsimp only at h
  rw [hap] at h
  split at h
  · rename_i hempty
    rw [List.isEmpty_iff.1 hempty] at hap
    cases hap
    exact hcan
  · dsimp only at h
    split at h
    · rename_i hor
      rw [hcan] at hor
      simpa using hor
    · cases h

theorem State.canWin_recordVictory {won : Option Victory} (h : s.recordVictory c = (t, won)) :
    (View.mk c t).canWin = (View.mk c s).canWin := by
  rcases recordVictory_cases h with ⟨rfl, -⟩ | ⟨d, hmem, hholds, rfl, -⟩
  · rfl
  · have hwon : c.victory.toList.any (fun d => (View.mk c s).holds d.condition) = true :=
      List.any_eq_true.2 ⟨d, hmem, hholds⟩
    unfold View.canWin State.setVictory
    simp [hwon]

/-- The states that a turn goes through when a plan lands, one for each stage but the last. -/
structure Stages where
  counted : State
  acted : State
  marked : State
  fired : State
  latched : State
  recorded : State
  passed : State

namespace Stages

/-- The stages lead from one state to the next, and what lands is what they come to. -/
structure Follow (x : Stages) (c : Catalog) (s : State) (p : Plan) (done : Commit) : Prop where
  counted : x.counted = s.advanceTurn
  acted : x.counted.applyAll c p.effects = .ok x.acted
  marked : x.marked = x.acted.markRun c p.interaction
  fired : x.marked.fireAll c (View.mk c x.marked).dueBeats = .ok x.fired
  beats : done.beats = (View.mk c x.marked).dueBeats.map Beat.fired
  latched : x.latched = x.fired.setLatches (View.mk c x.marked).latches
  recorded : x.recorded = x.latched.recordSpokes c
  passed : x.recorded.passGate c = .ok (x.passed, done.transition)
  won : x.passed.recordVictory c = (done.state, done.victory)

/-- To count the turn, to set the latches, to record spokes and to record a victory leaves the
chance to win as it is. -/
structure Keep (x : Stages) (c : Catalog) (s t : State) : Prop where
  counted : (View.mk c x.counted).canWin = (View.mk c s).canWin
  latched : (View.mk c x.latched).canWin = (View.mk c x.fired).canWin
  recorded : (View.mk c x.recorded).canWin = (View.mk c x.latched).canWin
  won : (View.mk c t).canWin = (View.mk c x.passed).canWin

/-- The chance to win is lost in a stage that the check of the plan does not look at. -/
inductive Forfeit (x : Stages) (c : Catalog) (p : Plan) (done : Commit) : Prop
  /-- The interaction that ran runs once, and is marked. -/
  | spent (d : Interaction) (hd : p.interaction.bind c.interactions.get? = some d)
      (honce : d.repeatable = false) (hbefore : (View.mk c x.acted).canWin = true)
      (hafter : (View.mk c x.marked).canWin = false)
  /-- Beats fire. -/
  | beaten (hfired : done.beats ≠ []) (hbefore : (View.mk c x.marked).canWin = true)
      (hafter : (View.mk c x.fired).canWin = false)
  /-- The act is left. -/
  | left (hleft : done.transition ≠ none) (hbefore : (View.mk c x.recorded).canWin = true)
      (hafter : (View.mk c x.passed).canWin = false)

namespace Follow

variable {x : Stages} (h : x.Follow c s p done)
include h

theorem keep (hc : c.Accepted) : x.Keep c s done.state where
  counted := by
    rw [h.counted]
    exact (Twins.advanceTurn s).canWin
  latched := by
    rw [h.latched]
    exact (Twins.setLatches _ _).canWin
  recorded := by
    rw [h.recorded]
    exact (Twins.recordSpokes hc _).canWin
  won := State.canWin_recordVictory h.won

/-- What is lost between the effects of a plan and the state that landing it leaves is lost at the
mark, in the beats or at the gate. -/
theorem canWin_or_forfeit (hc : c.Accepted) (hacted : (View.mk c x.acted).canWin = true) :
    (View.mk c done.state).canWin = true ∨ x.Forfeit c p done := by
  have hkeep := h.keep hc
  cases hmarked : (View.mk c x.marked).canWin with
  | false =>
    rcases markRun_cases c x.acted p.interaction with hsame | ⟨d, hd, honce, -⟩
    · rw [h.marked, hsame, hacted] at hmarked
      cases hmarked
    · exact .inr (.spent d hd honce hacted hmarked)
  | true =>
  cases hfired : (View.mk c x.fired).canWin with
  | false =>
    refine .inr (.beaten (fun hnone => ?_) hmarked hfired)
    have hdue : (View.mk c x.marked).dueBeats = [] :=
      List.map_eq_nil_iff.1 (h.beats.symm.trans hnone)
    have hsame := h.fired
    rw [hdue] at hsame
    rw [← Except.ok.inj hsame, hmarked] at hfired
    cases hfired
  | true =>
  have hrecorded := hkeep.recorded.trans (hkeep.latched.trans hfired)
  cases hpassed : (View.mk c x.passed).canWin with
  | false =>
    refine .inr (.left (fun hnone => ?_) hrecorded hpassed)
    rcases passGate_cases h.passed with ⟨hsame, -⟩ | ⟨current, next, beat, -, -, -, hstep⟩
    · rw [hsame, hrecorded] at hpassed
      cases hpassed
    · rw [hnone] at hstep
      cases hstep
  | true => exact .inl (hkeep.won.trans hpassed)

end Follow
end Stages

theorem Landing.stages {acted beaten passed : State}
    (h : Landing c s.advanceTurn p done acted beaten passed) :
    ∃ x : Stages, x.Follow c s p done := by
  obtain ⟨fired, hfired, hlatched, hbeats⟩ := fireAll_of_fireDue h.beat
  exact ⟨⟨s.advanceTurn, acted, acted.markRun c p.interaction, fired, beaten,
    beaten.recordSpokes c, passed⟩, rfl, h.act, rfl, hfired, hbeats, hlatched, rfl, h.pass, h.win⟩

/-- From a state that can win, a line that is committed goes through a state that can win, the one
after the effects of its plan, and leaves one, unless the chance is forfeited at the mark on its
interaction, in the beats or at the gate of the act. The other stages leave it as it is. -/
theorem canWin_play_or_forfeits (hc : c.Accepted) (hcan : (View.mk c s).canWin = true) {l : Line}
    (hl : l.landing? c s = some (p, done)) :
    ∃ x : Stages, x.Follow c s p done ∧ (View.mk c x.acted).canWin = true ∧
      x.Keep c s (l.play c s).state ∧
      ((View.mk c (l.play c s).state).canWin = true ∨ x.Forfeit c p done) := by
  have hlands := Line.lands hl
  obtain ⟨acted, beaten, passed, hstages⟩ := hlands.stages
  obtain ⟨x, h⟩ := hstages.stages
  have hkeep := h.keep hc
  have hwinnable := hlands.approved.winnable
  rw [← h.counted] at hwinnable
  have hacted := View.canWin_of_checkWinnable hwinnable h.acted (hkeep.counted.trans hcan)
  rw [(Line.play_of_some hl).1]
  exact ⟨x, h, hacted, hkeep, h.canWin_or_forfeit hc hacted⟩

end

/-- A mill in which bread takes a toll that is paid and clears at once, grain that burns as soon as
something is kindled, and an attic that is out of reach in winter. -/
def millDoc : WorldDocument where
  world := some { title := "Mill" }
  start := some { location := "mill" }
  locations := [{ id := "mill", name := "Mill" }, { id := "attic", name := "Attic" }]
  items := [{ id := "grain", name := "grain", location := some "mill" }]
  exits := [{ id := "ladder", direction := some "up", origin := "mill", destination := "attic" }]
  interactions := [
    { id := "pay", triggers := ["pay"],
      effects := [.setFlag "toll" (.bool true), .clearFlag "toll"] },
    { id := "kindle", triggers := ["kindle"], effects := [.setFlag "lit" (.bool true)] },
    { id := "leave", triggers := ["leave"], effects := [.setFlag "gone" (.bool true)] }]
  beats := [{ id := "blaze", trigger := .atom (.flag "lit"), effects := [.destroyItem "grain"] }]
  acts := [
    { id := "harvest", locations := ["mill", "attic"], gate := some (.atom (.flag "gone")) },
    { id := "winter", mode := .replace, locations := ["mill"] }]
  victory := [
    { id := "bread",
      condition := .all [.atom (.flag "toll"), .atom (.hasItem "grain"), .atom (.at "attic")] }]

def mill : Catalog := .draft millDoc

theorem mill_accepted : mill.Accepted :=
  ⟨millDoc, Catalog.ofDocument_eq_ok_iff.2 ⟨by decide, rfl⟩⟩

theorem canWin_mill : (View.mk mill (.initial mill)).canWin = true := by decide

/-- Kindling in the mill goes through a state that can win, and forfeits it. -/
theorem kindling_forfeits :
    mill.Accepted ∧ (View.mk mill (.initial mill)).canWin = true ∧
      ∃ p done, Line.landing? mill { input := "kindle" } (.initial mill) = some (p, done) ∧
        ∃ x : Stages, x.Follow mill (.initial mill) p done ∧ (View.mk mill x.acted).canWin = true ∧
          x.Keep mill (.initial mill)
            (Line.play mill { input := "kindle" } (.initial mill)).state ∧
          x.Forfeit mill p done := by
  have hlanding : (Line.landing? mill { input := "kindle" } (.initial mill)).isSome = true := by
    decide +kernel
  have hlost : (View.mk mill
      (Line.play mill { input := "kindle" } (.initial mill)).state).canWin = false := by
    decide +kernel
  obtain ⟨⟨p, done⟩, hl⟩ := Option.isSome_iff_exists.1 hlanding
  obtain ⟨x, h, hacted, hkeep, hend⟩ := canWin_play_or_forfeits mill_accepted canWin_mill hl
  refine ⟨mill_accepted, canWin_mill, p, done, hl, x, h, hacted, hkeep, ?_⟩
  exact hend.resolve_left fun hcan => absurd (hlost.symm.trans hcan) Bool.false_ne_true

/-- Kindling is committed in the mill, and then there is no bread any more. -/
theorem kindling_in_mill :
    ¬∀ (c : Catalog) (s : State) (l : Line), c.Accepted → Reachable c s →
      (View.mk c s).canWin = true → (l.landing? c s).isSome = true →
        (View.mk c (l.play c s).state).canWin = true := by
  intro h
  have hcan := h mill (.initial mill) { input := "kindle" } mill_accepted .refl canWin_mill
    (by decide +kernel)
  exact absurd hcan (by decide +kernel)

example :
    (View.mk mill (Line.play mill { input := "pay" } (.initial mill)).state).canWin = false := by
  decide +kernel

example :
    (View.mk mill (Line.play mill { input := "leave" } (.initial mill)).state).canWin = false := by
  decide +kernel

end Storyworld
