import Storyworld.Session
import Storyworld.Proofs.Accepted
import Storyworld.Proofs.Runs

/-!
# Turns as a whole

`Fails c s p bad` says where the landing of a plan stops: at an effect of its own, at one of a due
beat after the beats before it have fired, or at one of the gate beat. These are the failures of
`State.commit`, and a turn that meets one leaves what a refused turn leaves: the state before it,
one turn later (`Session.play_whole_or_not_at_all`).
-/

namespace Storyworld

namespace State

variable {c : Catalog} {s t : State} {bad : Inconsistency}

/-- The first `k` effects are applied, and the next one meets an obstacle. -/
def StopsAt (c : Catalog) (s : State) (es : List Effect) (k : Nat) (bad : Inconsistency) : Prop :=
  ∃ m e, s.applyAll c (es.take k) = .ok m ∧ es[k]? = some e ∧ m.apply c e = .error bad

theorem stopsAt_zero {e : Effect} {es : List Effect} :
    s.StopsAt c (e :: es) 0 bad ↔ s.apply c e = .error bad := by
  constructor
  · rintro ⟨m, e', hm, he, hstop⟩
    cases hm
    cases he
    exact hstop
  · intro hstop
    exact ⟨s, e, rfl, rfl, hstop⟩

theorem stopsAt_succ {e : Effect} {es : List Effect} {k : Nat} (h : s.apply c e = .ok t) :
    s.StopsAt c (e :: es) (k + 1) bad ↔ t.StopsAt c es k bad := by
  unfold StopsAt
  simp only [List.take_succ_cons, List.getElem?_cons_succ, applyAll, h]

theorem applyAll_eq_error_iff {es : List Effect} :
    s.applyAll c es = .error bad ↔ ∃ k, s.StopsAt c es k bad := by
  induction es generalizing s with
  | nil => simp [applyAll, StopsAt]
  | cons e es ih =>
    cases he : s.apply c e with
    | error bad' =>
      -- Nothing after the first effect is reached.
      have hlater : ∀ k, ¬s.StopsAt c (e :: es) (k + 1) bad := by
        rintro k ⟨m, _, hm, -⟩
        rw [List.take_succ_cons, applyAll, he] at hm
        cases hm
      rw [applyAll, he]
      constructor
      · rintro ⟨rfl⟩
        exact ⟨0, stopsAt_zero.2 he⟩
      · rintro ⟨_ | k, h⟩
        · have hstop := stopsAt_zero.1 h
          rw [he] at hstop
          exact hstop
        · exact absurd h (hlater k)
    | ok m =>
      rw [applyAll, he]
      dsimp only
      rw [ih]
      constructor
      · rintro ⟨k, h⟩
        exact ⟨k + 1, (stopsAt_succ he).2 h⟩
      · rintro ⟨_ | k, h⟩
        · rw [stopsAt_zero, he] at h
          cases h
        · exact ⟨k, (stopsAt_succ he).1 h⟩

theorem fire_eq_error_iff {b : Beat} :
    s.fire c b = .error bad ↔ ∃ k, s.StopsAt c b.effects k bad := by
  rw [← applyAll_eq_error_iff, fire]
  cases s.applyAll c b.effects <;> simp

theorem fireAll_eq_error_iff {bs : List Beat} :
    s.fireAll c bs = .error (bad, t) ↔
      ∃ k b j, s.fireAll c (bs.take k) = .ok t ∧ bs[k]? = some b ∧ t.StopsAt c b.effects j bad := by
  induction bs generalizing s with
  | nil => simp [fireAll]
  | cons b bs ih =>
    cases hb : s.fire c b with
    | error bad' =>
      rw [fireAll, hb]
      constructor
      · rintro ⟨rfl⟩
        obtain ⟨j, hj⟩ := fire_eq_error_iff.1 hb
        exact ⟨0, b, j, rfl, rfl, hj⟩
      · rintro ⟨_ | k, b', j, hbefore, hget, hj⟩
        · cases hbefore
          cases hget
          have hstop := fire_eq_error_iff.2 ⟨j, hj⟩
          rw [hb] at hstop
          cases hstop
          rfl
        · rw [List.take_succ_cons, fireAll, hb] at hbefore
          cases hbefore
    | ok m =>
      rw [fireAll, hb]
      dsimp only
      rw [ih]
      constructor
      · rintro ⟨k, b', j, hbefore, hget, hj⟩
        refine ⟨k + 1, b', j, ?_, hget, hj⟩
        rw [List.take_succ_cons, fireAll, hb]
        exact hbefore
      · rintro ⟨_ | k, b', j, hbefore, hget, hj⟩
        · cases hbefore
          cases hget
          have hstop := fire_eq_error_iff.2 ⟨j, hj⟩
          rw [hb] at hstop
          cases hstop
        · rw [List.take_succ_cons, fireAll, hb] at hbefore
          exact ⟨k, b', j, hbefore, hget, hj⟩

theorem fireDue_eq_error_iff :
    s.fireDue c = .error (bad, t) ↔ s.fireAll c (View.mk c s).dueBeats = .error (bad, t) := by
  unfold fireDue
  dsimp only
  cases s.fireAll c (View.mk c s).dueBeats <;> simp

theorem passGate_eq_error_iff :
    s.passGate c = .error bad ↔
      ∃ current next b k, (View.mk c s).openGate? = some (current, next) ∧
        (View.mk c s).pendingGateBeat? current = some b ∧ s.StopsAt c b.effects k bad := by
  unfold passGate
  dsimp only
  cases hgate : (View.mk c s).openGate? with
  | none => simp
  | some way =>
    obtain ⟨current, next⟩ := way
    cases hb : (View.mk c s).pendingGateBeat? current with
    | none => simp [hb]
    | some b =>
      cases hfire : s.fire c b with
      | ok m =>
        have hgoes : ∀ k, ¬s.StopsAt c b.effects k bad := by
          intro k hk
          rw [fire_eq_error_iff.2 ⟨k, hk⟩] at hfire
          cases hfire
        simp [hb, hfire, hgoes]
      | error bad' =>
        have hstops : bad' = bad ↔ ∃ k, s.StopsAt c b.effects k bad := by
          rw [← fire_eq_error_iff, hfire, Except.error.injEq]
        simp [hb, hfire, hstops]

end State

/-- Where the landing of a plan stops, and at what. -/
inductive Fails (c : Catalog) (s : State) (p : Plan) (bad : Inconsistency) : Prop
  /-- At an effect of the plan. -/
  | act (k : Nat) (h : s.StopsAt c p.effects k bad)
  /-- At an effect of a due beat; `before` is what the beats before it leave. -/
  | beat {acted before : State} {b : Beat} (k j : Nat)
      (hact : s.applyAll c p.effects = .ok acted)
      (hb : (View.mk c (acted.markRun c p.interaction)).dueBeats[k]? = some b)
      (hbefore : (acted.markRun c p.interaction).fireAll c
        ((View.mk c (acted.markRun c p.interaction)).dueBeats.take k) = .ok before)
      (h : before.StopsAt c b.effects j bad)
  /-- At an effect of the gate beat. -/
  | gate {acted beaten : State} {fired : List FiredBeat} {current next : Act} {b : Beat} (k : Nat)
      (hact : s.applyAll c p.effects = .ok acted)
      (hbeat : (acted.markRun c p.interaction).fireDue c = .ok (beaten, fired))
      (hgate : (View.mk c (beaten.recordSpokes c)).openGate? = some (current, next))
      (hb : (View.mk c (beaten.recordSpokes c)).pendingGateBeat? current = some b)
      (h : (beaten.recordSpokes c).StopsAt c b.effects k bad)

section
variable {c : Catalog} {s : State} {p : Plan} {bad : Inconsistency}

theorem Fails.commit (h : Fails c s p bad) :
    s.commit c p.effects p.interaction = .error bad := by
  unfold State.commit
  cases h with
  | act k h => rw [State.applyAll_eq_error_iff.2 ⟨k, h⟩]
  | beat k j hact hb hbefore h =>
    have hdue := State.fireDue_eq_error_iff.2 (State.fireAll_eq_error_iff.2
      ⟨k, _, j, hbefore, hb, h⟩)
    simp only [hact, hdue]
  | gate k hact hbeat hgate hb h =>
    have hpass := State.passGate_eq_error_iff.2 ⟨_, _, _, k, hgate, hb, h⟩
    simp only [hact, hbeat, hpass]

theorem Fails.of_commit (h : s.commit c p.effects p.interaction = .error bad) :
    Fails c s p bad := by
  unfold State.commit at h
  split at h
  · rename_i bad' hact
    cases h
    obtain ⟨k, hk⟩ := State.applyAll_eq_error_iff.1 hact
    exact .act k hk
  · rename_i acted hact
    split at h
    · rename_i bad' before hbeat
      cases h
      obtain ⟨k, b, j, hbefore, hb, hj⟩ :=
        State.fireAll_eq_error_iff.1 (State.fireDue_eq_error_iff.1 hbeat)
      exact .beat k j hact hb hbefore hj
    · rename_i beaten fired hbeat
      split at h
      · rename_i bad' hpass
        cases h
        obtain ⟨current, next, b, k, hgate, hb, hk⟩ := State.passGate_eq_error_iff.1 hpass
        exact .gate k hact hbeat hgate hb hk
      · cases h

/-- The failures of landing a plan are those of its stages. -/
theorem commit_eq_error_iff :
    s.commit c p.effects p.interaction = .error bad ↔ Fails c s p bad :=
  ⟨.of_commit, Fails.commit⟩

end

/-! ### Turns -/

section
variable {c : Catalog} {l : Line} {s : State} {bad : Inconsistency}

theorem View.decide_ne_committed {v : View} {style : Narration.Style} {i : Interpretation}
    {status : TurnStatus} {text : String} (h : v.decide style i = .refused status text) :
    status ≠ .committed := by
  unfold View.decide at h
  split at h
  · cases h
    simp
  · cases h
    simp
  · dsimp only at h
    split at h <;> cases h
    · simp
    · simp

/-- How a turn ends: its line is refused, or the plan of the line fails, or it lands. -/
inductive Line.Ends (c : Catalog) (l : Line) (s : State) : Prop
  | refused {o : TurnOutcome} (hstate : (l.play c s).state = s.advanceTurn)
      (ho : (l.play c s).outcome = .ok o) (hstatus : o.status ≠ .committed)
  | failed {p : Plan} {bad : Inconsistency} (hstate : (l.play c s).state = s.advanceTurn)
      (ho : (l.play c s).outcome = .error bad)
      (hp : l.decision c s.advanceTurn = .approved p p.effects)
      (hfails : Fails c s.advanceTurn p bad)
  | landed {p : Plan} {done : Commit} {o : TurnOutcome} (hstate : (l.play c s).state = done.state)
      (ho : (l.play c s).outcome = .ok o) (hstatus : o.status = .committed)
      (hp : l.decision c s.advanceTurn = .approved p p.effects)
      (hlands : Lands c s.advanceTurn p done)

theorem Line.ends (c : Catalog) (l : Line) (s : State) : l.Ends c s := by
  cases hd : l.decision c s.advanceTurn with
  | refused status text =>
    obtain ⟨hstate, ho⟩ := Line.play_refused hd
    unfold Line.decision at hd
    exact .refused hstate ho (View.decide_ne_committed hd)
  | approved p effects =>
    obtain ⟨-, -, rfl⟩ := Line.approves_of_decision hd
    cases hc : s.advanceTurn.commit c p.effects p.interaction with
    | error bad =>
      obtain ⟨hstate, ho⟩ := Line.play_failed hd hc
      exact .failed hstate ho hd (commit_eq_error_iff.1 hc)
    | ok done =>
      have hl : l.landing? c s = some (p, done) := by
        unfold Line.landing?
        rw [hd]
        dsimp only
        rw [hc]
      obtain ⟨hstate, o, ho, hstatus, -⟩ := Line.play_of_some hl
      exact .landed hstate ho hstatus hd (Line.lands hl)

end

theorem State.turn_advanceTurn {s : State} (h : s.turn.toNat + 1 < UInt64.size) :
    s.advanceTurn.turn.toNat = s.turn.toNat + 1 := by
  show (s.turn + 1).toNat = s.turn.toNat + 1
  rw [UInt64.toNat_add, UInt64.toNat_one]
  exact Nat.mod_eq_of_lt h

/-- A turn lands completely or not at all. If it is not committed, or if it fails, which it does at
an effect of the plan, of a due beat or of the gate beat, it leaves the session one turn later and
otherwise as it was; a committed turn leaves what landing its plan leaves, one turn later too. -/
theorem Session.play_whole_or_not_at_all (g : Session)
    (hturn : g.state.turn.toNat + 1 < UInt64.size) (companions : Companions) (input : String) :
    let counted : State := { g.state with turn := g.state.turn + 1 }
    let line : Line := { settings := g.settings, companions, input }
    let played := g.play companions input
    (g.after played).state.turn.toNat = g.state.turn.toNat + 1 ∧
      (∀ o, played.outcome = .ok o → o.status ≠ .committed →
        g.after played = { g with state := counted }) ∧
      (∀ bad, played.outcome = .error bad → g.after played = { g with state := counted }) ∧
      (∀ bad, played.outcome = .error bad ↔
        ∃ p, line.decision g.catalog counted = .approved p p.effects ∧
          Fails g.catalog counted p bad) ∧
      ∀ o, played.outcome = .ok o → o.status = .committed →
        ∃ p done, line.decision g.catalog counted = .approved p p.effects ∧
          Lands g.catalog counted p done ∧ g.after played = { g with state := done.state } := by
  intro counted line played
  have hcounted : counted.turn.toNat = g.state.turn.toNat + 1 := State.turn_advanceTurn hturn
  have hafter : ∀ t : State, played.state = t → g.after played = { g with state := t } := by
    rintro t rfl
    rfl
  have hfails : ∀ bad, (∃ p, line.decision g.catalog counted = .approved p p.effects ∧
      Fails g.catalog counted p bad) → played.outcome = .error bad := by
    rintro bad ⟨p, hp, hbad⟩
    exact (Line.play_failed hp (commit_eq_error_iff.2 hbad)).2
  obtain ⟨hstate, ho, hstatus⟩ | ⟨hstate, ho, hp, hbad⟩ | ⟨hstate, ho, hstatus, hp, hlands⟩ :=
    line.ends g.catalog g.state
  · -- The line is refused.
    refine ⟨?_, fun _ _ _ => hafter _ hstate, fun bad h => ?_, fun bad => ⟨fun h => ?_, hfails bad⟩,
      fun o h hcommitted => ?_⟩
    · rw [hafter _ hstate]
      exact hcounted
    · cases ho.symm.trans h
    · cases ho.symm.trans h
    · cases ho.symm.trans h
      exact absurd hcommitted hstatus
  · -- The plan fails.
    refine ⟨?_, fun o h => ?_, fun _ _ => hafter _ hstate, fun bad => ⟨fun h => ?_, hfails bad⟩,
      fun o h => ?_⟩
    · rw [hafter _ hstate]
      exact hcounted
    · cases ho.symm.trans h
    · cases ho.symm.trans h
      exact ⟨_, hp, hbad⟩
    · cases ho.symm.trans h
  · -- The plan lands.
    refine ⟨?_, fun o h huncommitted => ?_, fun bad h => ?_,
      fun bad => ⟨fun h => ?_, hfails bad⟩, fun _ _ _ => ⟨_, _, hp, hlands, hafter _ hstate⟩⟩
    · rw [hafter _ hstate]
      show UInt64.toNat (Commit.state _).turn = _
      rw [(Chain.lands hlands).turn_eq]
      exact hcounted
    · cases ho.symm.trans h
      exact absurd hstatus huncommitted
    · cases ho.symm.trans h
    · cases ho.symm.trans h

/-- What a turn fails at. -/
def Played.failure? (p : Played) : Option Inconsistency :=
  match p.outcome with
  | .ok _ => none
  | .error bad => some bad

theorem Played.failure?_eq_some_iff {p : Played} {bad : Inconsistency} :
    p.failure? = some bad ↔ p.outcome = .error bad := by
  unfold failure?
  cases p.outcome <;> simp

/-- A room with a vase. The first of two beats shudders at its end, the second wants it back. -/
def vaseDoc : WorldDocument where
  world := some { title := "Vase" }
  start := some { location := "hall" }
  locations := [{ id := "hall", name := "Hall" }]
  items := [{ id := "vase", name := "vase", location := some "hall" }]
  interactions := [{
    id := "smash"
    triggers := ["smash"]
    effects := [.destroyItem "vase", .setFlag "smashed" (.bool true)] }]
  beats := [
    { id := "shudder"
      trigger := .atom (.flag "smashed")
      effects := [.setFlag "cold" (.bool true)] },
    { id := "regret"
      trigger := .atom (.flag "smashed")
      effects := [.giveItem "vase"] }]
  acts := [{ id := "evening", locations := ["hall"] }]

def vase : Catalog := .draft vaseDoc

/-- Smashing the vase is approved and the first beat fires. The second fails, and of the turn
nothing is left but its count. -/
theorem nothing_smashed :
    let g : Session := ⟨.zero, vase, {}, .initial vase⟩
    let bad : Inconsistency := ⟨.giveItem "vase", .destroyedItem "vase"⟩
    g.state.turn.toNat + 1 < UInt64.size ∧
      (g.play {} "smash").outcome = .error bad ∧
      g.after (g.play {} "smash") =
        { g with state := { g.state with turn := g.state.turn + 1 } } := by
  intro g bad
  have hturn : g.state.turn.toNat + 1 < UInt64.size := by decide
  have hfailure : (g.play {} "smash").failure? = some bad := by decide +kernel
  have hbad := Played.failure?_eq_some_iff.1 hfailure
  obtain ⟨-, -, hfailed, -⟩ := g.play_whole_or_not_at_all hturn {} "smash"
  exact ⟨hturn, hbad, hfailed bad hbad⟩

end Storyworld
