import Storyworld.Proofs.Reckoning
import Storyworld.Proofs.Runs

/-!
# Winnability

From a state that cannot win any more no turns record a victory, as long as the outlook of that
state reckons with what they land (`no_victory_of_reckons`): whatever a landing does then stays
within the outlook (`State.Within.lands`), and what is within it meets no condition that it rules
out.
-/

namespace Storyworld

variable {v : View} {o : Outlook} {t t' : State}

namespace State.Within

/-! ### The stages of a landing -/

section
variable (h : t.Within v o) (hc : v.catalog.Accepted) (ho : o.Settled v)
include h hc ho

/-- The effects of an approved intent by itself stay within the outlook. -/
theorem own {p : Plan} (hp : (View.mk v.catalog t).Approves p) {i : Intent} (hi : p.intent = i)
    (hap : t.applyAll v.catalog ((View.mk v.catalog t).ownEffects i) = .ok t') :
    t'.Within v o := by
  have htarget := hp.target
  have hown := hp.ownership
  rw [hi] at htarget hown
  cases i with
  | move x =>
    refine h.applyAll (fun e he f hf => ?_) hap
    obtain ⟨d, hd, rfl⟩ := Option.map_eq_some_iff.1 (Option.mem_toList.1 he)
    obtain rfl := List.mem_singleton.1 hf
    exact h.move hc ho htarget hd
  | take key =>
    unfold View.ownEffects at hap
    dsimp only at hap
    split at hap
    · obtain ⟨s', hgive, hnil⟩ := State.applyAll_cons_eq_ok_iff.1 hap
      cases hnil
      have hdeclared := (State.apply_eq_ok_iff.1 hgive).1 (.item key.id) List.mem_cons_self
      refine h.apply (fun f hf => ?_) hgive
      obtain rfl : f = .gain key.id := by
        unfold View.facts at hf
        dsimp only at hf
        split at hf
        · cases hf
        · exact List.mem_singleton.1 hf
      exact h.take ho hown hdeclared
    · cases hap
      exact h
  | drop key =>
    unfold View.ownEffects at hap
    dsimp only at hap
    split at hap
    · obtain ⟨s', hplace, hnil⟩ := State.applyAll_cons_eq_ok_iff.1 hap
      cases hnil
      exact h.drop (View.carried_of_checkOwnership hown) hplace
    · cases hap
      exact h
  | examine key | use key on | talk key | interact x =>
    cases hap
    exact h

omit h hc ho in
theorem declared_of_take {p : Plan} (hp : (View.mk v.catalog t).Approves p) {key : EntityKey}
    (hkey : p.intent = .take key)
    (hap : t.applyAll v.catalog ((View.mk v.catalog t).ownEffects (.take key)) = .ok t') :
    v.catalog.items.contains key.id = true := by
  have hfit := hp.fit
  unfold View.checkFit at hfit
  rw [hkey] at hfit
  dsimp only [View.wantedKind?] at hfit
  split at hfit
  · rename_i hkind
    unfold View.ownEffects at hap
    dsimp only at hap
    rw [if_pos hkind] at hap
    obtain ⟨m, hgive, -⟩ := State.applyAll_cons_eq_ok_iff.1 hap
    exact (State.apply_eq_ok_iff.1 hgive).1 (.item key.id) List.mem_cons_self
  · cases hfit

/-- The effects of an approved plan that the outlook reckons with stay within the outlook, which
knows that its interaction may run. -/
theorem acted {p : Plan} {done : Commit} (hp : (View.mk v.catalog t).Approves p)
    (hplan : ∃ i, p = (View.mk v.catalog t).plan i) (hreckons : o.Reckons v p done)
    (hap : t.applyAll v.catalog p.effects = .ok t') :
    t'.Within v o ∧ ∀ d, p.interaction.bind v.catalog.interactions.get? = some d →
      o.knows (.ran d.id) = true := by
  obtain ⟨i, rfl⟩ := hplan
  obtain ⟨hintent, ⟨-, heffects, hnone⟩ | ⟨d, hrider, heffects, hd⟩⟩ :=
    (View.mk v.catalog t).plan_cases i
  · rw [heffects] at hap
    rw [hnone]
    exact ⟨h.own hc ho hp hintent hap, fun d hd => nomatch hd⟩
  · obtain ⟨hmem, hrides⟩ := View.rides_of_rider? hrider
    rw [heffects] at hap
    obtain ⟨m, hown, hrest⟩ := State.applyAll_append_eq_ok_iff.1 hap
    have hwith := hreckons.interaction d hd
    rw [hintent] at hwith
    have hmay : o.mayRun v d = true := h.mayRun hc ho hp hintent hrides hd
      (fun key hkey => by
        subst hkey
        exact declared_of_take hp hintent hown) hwith
    have hunspent : d.repeatable = true ∨ d.id ∉ v.state.usedInteractions := by
      have hspent := (View.ready_of_checkInteraction (hp.interaction hd)).2.2
      cases hr : d.repeatable with
      | true => exact .inl rfl
      | false =>
        refine .inr fun hused => ?_
        have hused : t.usedInteractions.contains d.id = true := h.spent _ hused
        unfold View.spent at hspent
        rw [hr, hused] at hspent
        cases hspent
    obtain ⟨hforesees, hran⟩ := ho.closed.interaction ho.sound hmem hunspent hmay
    refine ⟨(h.own hc ho hp hintent hown).applyAll hforesees hrest, fun d' hd' => ?_⟩
    obtain rfl := Option.some.inj (hd.symm.trans hd')
    exact hran

omit hc ho in
theorem markRun {x : Option EntityId} (hran : ∀ d, x.bind v.catalog.interactions.get? = some d →
    o.knows (.ran d.id) = true) : (t.markRun v.catalog x).Within v o := by
  rcases markRun_cases v.catalog t x with hsame | ⟨d, hd, -, hmarked⟩
  · rw [hsame]
    exact h
  · rw [hmarked]
    exact h.markUsed (hran d hd)

omit hc ho in
theorem fire {b : Beat} (hknown : o.knows (.beat b.id) = true)
    (hforesees : ∀ e ∈ b.effects, o.Foresees v e) (hf : t.fire v.catalog b = .ok t') :
    t'.Within v o := by
  obtain ⟨m, hes, rfl⟩ := State.fire_eq_ok_iff.1 hf
  exact (h.applyAll hforesees hes).markFired hknown

omit hc ho in
theorem fireAll {bs : List Beat} (hbs : ∀ b ∈ bs, o.knows (.beat b.id) = true ∧
    ∀ e ∈ b.effects, o.Foresees v e) (hf : t.fireAll v.catalog bs = .ok t') : t'.Within v o := by
  induction bs generalizing t with
  | nil =>
    cases hf
    exact h
  | cons b bs ih =>
    obtain ⟨hknown, hforesees⟩ := hbs b (.head _)
    obtain ⟨m, hb, hf⟩ := State.fireAll_cons_eq_ok_iff.1 hf
    exact ih (h.fire hknown hforesees hb) (fun b hb => hbs b (.tail _ hb)) hf

/-- The due beats stay within the outlook, if it foresees those that fire once more. -/
theorem fireDue {fired : List FiredBeat} (hf : t.fireDue v.catalog = .ok (t', fired))
    (hagain : ∀ b ∈ fired, b.id ∈ v.state.firedBeats → ∀ e ∈ b.effects, o.Foresees v e) :
    t'.Within v o := by
  obtain ⟨after, hafter, rfl, rfl⟩ := fireAll_of_fireDue hf
  refine (h.fireAll (fun b hb => ?_) hafter).setLatches _
  obtain ⟨hmem, hgate, hholds⟩ := of_mem_dueBeats hb
  obtain ⟨hknown, hforesees⟩ := ho.closed.beat ho.sound ho.learns hmem hgate (h.may hc hholds)
  refine ⟨hknown, ?_⟩
  by_cases hfired : b.id ∈ v.state.firedBeats
  · exact hagain b.fired (List.mem_map.2 ⟨b, hb, rfl⟩) hfired
  · exact hforesees hfired

omit ho in
theorem recordSpokes : (t.recordSpokes v.catalog).Within v o := by
  refine h.completeSpokes fun x hx => ?_
  obtain ⟨d, hd, hholds⟩ := of_mem_newSpokes hx
  obtain rfl := Table.id_of_get? hd
  exact h.spoke hc hd hholds

omit ho in
theorem gateMayHold {a : Act} (hholds : (View.mk v.catalog t).gateHolds a = true) :
    o.gateMayHold v a = true := by
  unfold View.gateHolds at hholds
  unfold Outlook.gateMayHold
  cases hgate : a.gate with
  | some gate =>
    rw [hgate] at hholds
    exact h.may hc hholds
  | none =>
    rw [hgate] at hholds
    obtain ⟨hspokes, hall⟩ := Bool.and_eq_true_iff.1 hholds
    refine Bool.and_eq_true_iff.2 ⟨hspokes, List.all_eq_true.2 fun d hd => ?_⟩
    exact h.atom hc (a := .spoke d.id) (List.all_eq_true.1 hall d hd)

theorem next_le {current next : Act}
    (hopen : (View.mk v.catalog t).openGate? = some (current, next)) :
    ∃ i, v.catalog.acts.position? next.id = some i ∧ (Outlook.initial v).furthestAct < i ∧
      i ≤ o.furthestAct := by
  obtain ⟨hcurrent, hnext, hholds⟩ := of_openGate? hopen
  obtain ⟨i, hi, hget⟩ := Option.bind_eq_some_iff.1 hnext
  have hid : current.id = t.act := Table.id_of_get? hcurrent
  rw [hid] at hi
  have hfirst : (Outlook.initial v).furthestAct ≤ i := h.world.le_position hi
  have hle : i ≤ o.furthestAct := by
    rcases h.world.act with hact | ⟨j, hj, -, hle⟩
    · have hfurthest : (Outlook.initial v).furthestAct = i := by
        show (v.catalog.acts.position? v.state.act).getD 0 = i
        rw [← hact]
        exact congrArg (·.getD 0) hi
      have hknows := ho.learns.knows (f := .act i) (decide_eq_true (Nat.le_of_eq hfurthest.symm))
      exact of_decide_eq_true hknows
    · obtain rfl : i = j := Option.some.inj (hi.symm.trans hj)
      exact hle
  have hne : i ≠ o.furthestAct := by
    rintro rfl
    have hlast := Table.getElem?_of_get? hcurrent hi
    have hclosed := ho.closed.gate hlast (Option.isSome_iff_exists.2 ⟨next, hnext⟩)
    rw [h.gateMayHold hc hholds] at hclosed
    cases hclosed
  refine ⟨i + 1, Table.position?_of_getElem? ?_, by omega, by omega⟩
  rw [List.getElem?_map, hget]
  rfl

theorem passGate {step : Option Transition} (hpass : t.passGate v.catalog = .ok (t', step))
    (hgate : ∀ b, step.bind (·.gateBeat) = some b → o.knows (.beat b.id) = true) :
    t'.Within v o := by
  rcases passGate_cases hpass with ⟨rfl, -⟩ | ⟨current, next, beat, hopen, hpass, hbeat, -⟩
  · exact h
  · obtain ⟨i, hi, hlt, hle⟩ := h.next_le hc ho hopen
    cases hpass with
    | plain => exact h.enterAct hi hlt hle
    | @beaten b after hpending hfire =>
      obtain ⟨-, hmem, hunfired⟩ := of_pendingGateBeat? hpending
      have hknown : o.knows (.beat b.id) = true := hgate b.fired hbeat
      have hforesees := ho.sound.fired b hmem hknown fun hfired => hunfired (h.fired _ hfired)
      exact (h.fire hknown hforesees hfire).enterAct hi hlt hle

omit ho in
/-- A victory that is recorded may be reached. -/
theorem recordVictory {won : Option Victory} (hwin : t.recordVictory v.catalog = (t', won)) :
    t'.Within v o ∧ ∀ d, won = some d →
      d ∈ v.catalog.victory.toList ∧ o.may v d.condition = true := by
  rcases recordVictory_cases hwin with ⟨rfl, rfl⟩ | ⟨d, hmem, hholds, rfl, rfl⟩
  · exact ⟨h, fun d hd => nomatch hd⟩
  · refine ⟨h.setVictory d.id, fun d' hd' => ?_⟩
    obtain rfl := Option.some.inj hd'
    exact ⟨hmem, h.may hc hholds⟩

/-- A landing that the outlook reckons with stays within it, and the outlook accepts the condition
of the victory that it records. -/
theorem lands {p : Plan} {done : Commit} (hlands : Lands v.catalog t p done)
    (hreckons : o.Reckons v p done) :
    done.state.Within v o ∧ ∀ d, done.victory = some d →
      d ∈ v.catalog.victory.toList ∧ o.may v d.condition = true := by
  obtain ⟨acted, beaten, passed, hl⟩ := hlands.stages
  obtain ⟨hacted, hran⟩ := h.acted hc ho hlands.approved hlands.planned hreckons hl.act
  have hbeaten := (hacted.markRun hran).fireDue hc ho hl.beat hreckons.again
  have hpassed := (hbeaten.recordSpokes hc).passGate hc ho hl.pass hreckons.gate
  exact hpassed.recordVictory hc hl.win

end

end State.Within

/-! ### Runs -/

theorem View.not_may_of_canWin (h : v.canWin = false) {d : Victory}
    (hd : d ∈ v.catalog.victory.toList) : (Outlook.explore v).may v d.condition = false := by
  unfold canWin at h
  simp only [Bool.or_eq_false_iff, List.any_eq_false] at h
  simpa using h.2 d hd

/-- No run that starts within an outlook records a victory that the outlook does not accept, if the
outlook reckons with what the run lands. -/
theorem no_victory_of_within {c : Catalog} (hc : c.Accepted) {s : State} (ho : o.Settled ⟨c, s⟩)
    (hnone : ∀ d ∈ c.victory.toList, o.may ⟨c, s⟩ d.condition = false) (h : t.Within ⟨c, s⟩ o)
    {ls : List Line} (hreckons : ∀ x ∈ landings c t ls, o.Reckons ⟨c, s⟩ x.1 x.2) :
    ∀ p ∈ plays c t ls, p.victory? = none := by
  induction ls generalizing t with
  | nil => exact fun p hp => nomatch hp
  | cons l ls ih =>
    have hcounted := h.advanceTurn
    have hturn : (l.play c t).state.Within ⟨c, s⟩ o ∧ (l.play c t).victory? = none := by
      cases hl : l.landing? c t with
      | none =>
        obtain ⟨hstate, -, hvictory⟩ := Line.play_of_none hl
        rw [hstate]
        exact ⟨hcounted, hvictory⟩
      | some x =>
        obtain ⟨p, done⟩ := x
        obtain ⟨hstate, -⟩ := Line.play_of_some hl
        have hx : (p, done) ∈ landings c t (l :: ls) := by simp [landings, hl]
        obtain ⟨hwithin, hmay⟩ := hcounted.lands hc ho (Line.lands hl) (hreckons _ hx)
        rw [hstate]
        refine ⟨hwithin, ?_⟩
        rw [Line.victory?_of_some hl]
        cases hd : done.victory with
        | none => rfl
        | some d =>
          obtain ⟨hmem, hmay⟩ := hmay d hd
          rw [hnone d hmem] at hmay
          cases hmay
    intro p hp
    rcases List.mem_cons.1 hp with hp | hp
    · rw [hp]
      exact hturn.2
    · exact ih hturn.1 (fun x hx => hreckons x (List.mem_append_right _ hx)) p hp

/-- From a state that turns lead to and that cannot win any more, no line of a run records a
victory, as long as the outlook of the state reckons with what the run lands. -/
theorem no_victory_of_reckons {c : Catalog} (hc : c.Accepted) {s : State} (hs : Reachable c s)
    (hcan : (View.mk c s).canWin = false) {ls : List Line}
    (hreckons : ∀ x ∈ landings c s ls, (Outlook.explore ⟨c, s⟩).Reckons ⟨c, s⟩ x.1 x.2) :
    ∀ p ∈ plays c s ls, p.victory? = none := by
  have ho := Outlook.settled_explore ⟨c, s⟩
  refine no_victory_of_within hc ho (fun d hd => View.not_may_of_canWin hcan hd) ?_ hreckons
  exact .initial (.reachable hs) ho.learns

/-- A shrine in which praying with an idol blesses the player. The idol is out of play, and nobody
asks for it if the player prays by the phrase. -/
def shrineDoc : WorldDocument where
  world := some { title := "Shrine" }
  start := some { location := "shrine" }
  locations := [{ id := "shrine", name := "Shrine" }]
  items := [{ id := "idol", name := "idol" }]
  interactions := [
    { id := "kneel", kind := .interact, triggers := ["kneel"],
      effects := [.setFlag "humble" (.bool true)] },
    { id := "pray", kind := .use, triggers := ["pray"], item := some "idol",
      effects := [.setFlag "blessed" (.bool true)] }]
  beats := [{ id := "hush", trigger := .atom (.flag "humble") }]
  acts := [{ id := "dawn", locations := ["shrine"] }]
  victory := [{ id := "grace", condition := .atom (.flag "blessed") }]

def shrine : Catalog := .draft shrineDoc

theorem shrine_accepted : shrine.Accepted :=
  ⟨shrineDoc, Catalog.ofDocument_eq_ok_iff.2 ⟨by decide, rfl⟩⟩

theorem canWin_shrine : (View.mk shrine (.initial shrine)).canWin = false := by decide

/-- Kneeling in the shrine is reckoned with, and does not win. -/
theorem kneeling_is_no_victory :
    shrine.Accepted ∧ (View.mk shrine (.initial shrine)).canWin = false ∧
      ∀ p ∈ plays shrine (.initial shrine) [{ input := "kneel" }], p.victory? = none := by
  have hlanding : ∀ x ∈ landings shrine (.initial shrine) [{ input := "kneel" }],
      x.1.intent = .interact "kneel" ∧ x.1.interaction = some "kneel" ∧
        x.2.transition = none := by decide +kernel
  refine ⟨shrine_accepted, canWin_shrine,
    no_victory_of_reckons shrine_accepted .refl canWin_shrine fun x hx => ?_⟩
  obtain ⟨hintent, hinteraction, htransition⟩ := hlanding x hx
  refine ⟨fun d hd => ?_, fun b _ hb => (nomatch hb), fun b hb => ?_⟩
  · rw [hinteraction] at hd
    obtain rfl := Option.some.inj (Eq.symm hd)
    rw [hintent]
    exact ⟨fun x hx => (nomatch hx), fun key key' hkey => (nomatch hkey),
      fun x hx => hx.elim (nomatch ·) (nomatch ·)⟩
  · rw [htransition] at hb
    cases hb

/-- Praying in the shrine wins although the outlook has it that nobody can. -/
theorem praying_is_victory :
    ¬∀ (c : Catalog) (s : State) (ls : List Line), c.Accepted → Reachable c s →
      (View.mk c s).canWin = false → ∀ p ∈ plays c s ls, p.victory? = none := by
  intro h
  have hnone := h shrine (.initial shrine) [{ input := "pray" }] shrine_accepted .refl canWin_shrine
    _ List.mem_cons_self
  exact absurd hnone (by decide +kernel)

end Storyworld
