import Mathlib.Logic.Relation
import Storyworld.Integrity
import Storyworld.Turn
import Storyworld.Proofs.Approval
import Storyworld.Proofs.World

/-!
# Runs of turns

A `Line` is what the player types and under which settings and companions it is read;
`Reaches c s t` says that turns lead from `s` to `t`. `Lands` says what a committed turn did and
`Landing` names the states between its stages. Whatever a turn does after counting itself is a course
of the effects of its plan and its beats, with changes between them that leave the scene alone
(`Landing.course`), and so a chain of single changes of the store that leave the counter alone
(`Chain.lands`). A property which every single change keeps is kept by every run (`Kept.reaches`).
-/

namespace Storyworld

/-- What the player types, and what it is read under. -/
structure Line where
  settings : Settings := {}
  companions : Companions := {}
  input : String

namespace Line

variable (c : Catalog) (l : Line) (s : State)

def play : Played := playTurn c l.settings l.companions s l.input

/-- What is decided on the line. -/
def decision : Decision :=
  let v := View.mk c s
  v.decide l.settings.narrator ((l.settings.interpreter l.companions.intent).interpret v l.input)

/-- The plan that the line lands, and what landing it does. -/
def landing? : Option (Plan × Commit) :=
  match l.decision c s.advanceTurn with
  | .refused _ _ => none
  | .approved p effects =>
    match s.advanceTurn.commit c effects p.interaction with
    | .error _ => none
    | .ok done => some (p, done)

end Line

def Played.victory? (p : Played) : Option EntityId :=
  match p.outcome with
  | .ok o => o.victory
  | .error _ => none

def Played.effects (p : Played) : List Effect :=
  match p.outcome with
  | .ok o => o.effects
  | .error _ => []

/-- The beats that a turn fires, in order; that of the gate is the last. -/
def Played.beats (p : Played) : List FiredBeat :=
  match p.outcome with
  | .ok o => o.beats ++ (o.transition.bind (·.gateBeat)).toList
  | .error _ => []

def Played.transition? (p : Played) : Option Transition :=
  match p.outcome with
  | .ok o => o.transition
  | .error _ => none

/-- The beats that a turn fires because they are due. -/
def Played.dueBeats (p : Played) : List FiredBeat :=
  match p.outcome with
  | .ok o => o.beats
  | .error _ => []

theorem Played.beats_eq (p : Played) :
    p.beats = p.dueBeats ++ (p.transition?.bind (·.gateBeat)).toList := by
  unfold beats dueBeats transition?
  cases p.outcome <;> rfl

def plays (c : Catalog) (s : State) : List Line → List Played
  | [] => []
  | l :: ls => l.play c s :: plays c (l.play c s).state ls

def landings (c : Catalog) (s : State) : List Line → List (Plan × Commit)
  | [] => []
  | l :: ls => (l.landing? c s).toList ++ landings c (l.play c s).state ls

/-- Turns lead from one state to another. -/
inductive Reaches (c : Catalog) (s : State) : State → Prop
  | refl : Reaches c s s
  | turn {t : State} (h : Reaches c s t) (l : Line) : Reaches c s (l.play c t).state

/-- Turns lead to the state from the start of the world. -/
abbrev Reachable (c : Catalog) (s : State) : Prop := Reaches c (.initial c) s

/-! ### Committed turns -/

section
variable {c : Catalog} {l : Line} {s : State}

/-- What is refused moves the counter, and the player is told why. -/
theorem Line.play_refused {status : TurnStatus} {text : String}
    (h : l.decision c s.advanceTurn = .refused status text) :
    (l.play c s).state = s.advanceTurn ∧
      (l.play c s).outcome =
        .ok { turn := s.advanceTurn.turn, status, narration := { text } } := by
  unfold Line.decision at h
  unfold Line.play playTurn
  dsimp only at h ⊢
  rw [h]
  exact ⟨rfl, rfl⟩

theorem Line.play_failed {p : Plan} {effects : List Effect} {bad : Inconsistency}
    (h : l.decision c s.advanceTurn = .approved p effects)
    (hfail : s.advanceTurn.commit c effects p.interaction = .error bad) :
    (l.play c s).state = s.advanceTurn ∧ (l.play c s).outcome = .error bad := by
  unfold Line.decision at h
  unfold Line.play playTurn
  dsimp only at h ⊢
  rw [h]
  dsimp only
  rw [hfail]
  exact ⟨rfl, rfl⟩

/-- What is committed leaves the state that landing it leaves, and reports what that did. -/
theorem Line.play_committed {p : Plan} {effects : List Effect} {done : Commit}
    (h : l.decision c s.advanceTurn = .approved p effects)
    (hdone : s.advanceTurn.commit c effects p.interaction = .ok done) :
    (l.play c s).state = done.state ∧
    ∃ o, (l.play c s).outcome = .ok o ∧ o.status = .committed ∧ o.effects = effects ∧
      o.beats = done.beats ∧ o.transition = done.transition ∧
      o.victory = done.victory.map (·.id) := by
  unfold Line.decision at h
  unfold Line.play playTurn
  dsimp only at h ⊢
  rw [h]
  dsimp only
  rw [hdone]
  exact ⟨rfl, _, rfl, rfl, rfl, rfl, rfl, rfl⟩

theorem Line.outcome_of_none (h : l.landing? c s = none) :
    (l.play c s).state = s.advanceTurn ∧
      ((∃ bad, (l.play c s).outcome = .error bad) ∨
        ∃ status text, (l.play c s).outcome =
          .ok { turn := s.advanceTurn.turn, status, narration := { text } }) := by
  unfold landing? at h
  split at h
  · rename_i status text hd
    obtain ⟨hstate, ho⟩ := play_refused hd
    exact ⟨hstate, .inr ⟨status, text, ho⟩⟩
  · rename_i hd
    split at h
    · rename_i bad hc
      obtain ⟨hstate, ho⟩ := play_failed hd hc
      exact ⟨hstate, .inl ⟨bad, ho⟩⟩
    · cases h

/-- A turn that lands nothing fires no beat and records no victory. -/
theorem Line.play_of_none (h : l.landing? c s = none) :
    (l.play c s).state = s.advanceTurn ∧ (l.play c s).beats = [] ∧
      (l.play c s).victory? = none := by
  obtain ⟨hstate, ⟨bad, ho⟩ | ⟨status, text, ho⟩⟩ := Line.outcome_of_none h <;>
    exact ⟨hstate, by simp [Played.beats, ho], by simp [Played.victory?, ho]⟩

theorem Line.effects_of_none (h : l.landing? c s = none) : (l.play c s).effects = [] := by
  obtain ⟨-, ⟨bad, ho⟩ | ⟨status, text, ho⟩⟩ := Line.outcome_of_none h <;>
    simp [Played.effects, ho]

theorem Line.play_of_some {p : Plan} {done : Commit} (h : l.landing? c s = some (p, done)) :
    (l.play c s).state = done.state ∧
    ∃ o, (l.play c s).outcome = .ok o ∧ o.status = .committed ∧ o.beats = done.beats ∧
      o.transition = done.transition ∧ o.victory = done.victory.map (·.id) := by
  unfold landing? at h
  split at h
  · cases h
  · rename_i hd
    split at h
    · cases h
    · rename_i hc
      cases h
      obtain ⟨hstate, o, ho, hstatus, -, hreported⟩ := play_committed hd hc
      exact ⟨hstate, o, ho, hstatus, hreported⟩

theorem Line.transition?_of_some {p : Plan} {done : Commit} (h : l.landing? c s = some (p, done)) :
    (l.play c s).transition? = done.transition := by
  obtain ⟨-, o, ho, -, -, hstep, -⟩ := Line.play_of_some h
  unfold Played.transition?
  rw [ho]
  exact hstep

theorem Line.dueBeats_of_some {p : Plan} {done : Commit} (h : l.landing? c s = some (p, done)) :
    (l.play c s).dueBeats = done.beats := by
  obtain ⟨-, o, ho, -, hbeats, -, -⟩ := Line.play_of_some h
  unfold Played.dueBeats
  rw [ho]
  exact hbeats

theorem Line.victory?_of_some {p : Plan} {done : Commit} (h : l.landing? c s = some (p, done)) :
    (l.play c s).victory? = done.victory.map (·.id) := by
  obtain ⟨-, o, ho, -, -, -, hvictory⟩ := Line.play_of_some h
  unfold Played.victory?
  rw [ho]
  exact hvictory

/-- A committed turn: the plan was made of an intent, approved, and landed. -/
structure Lands (c : Catalog) (s : State) (p : Plan) (done : Commit) : Prop where
  planned : ∃ i, p = (View.mk c s).plan i
  approved : (View.mk c s).Approves p
  commit : s.commit c p.effects p.interaction = .ok done

theorem Line.approves_of_decision {p : Plan} {effects : List Effect}
    (h : l.decision c s = .approved p effects) :
    (∃ i, p = (View.mk c s).plan i) ∧ (View.mk c s).Approves p ∧ effects = p.effects := by
  unfold decision View.decide at h
  dsimp only at h
  split at h
  · cases h
  · cases h
  · rename_i i _
    split at h
    · rename_i hv
      obtain ⟨hap, rfl⟩ := View.approves_of_validate hv
      cases h
      exact ⟨⟨i, rfl⟩, hap, rfl⟩
    · cases h
    · cases h

theorem Line.decision_of_some {p : Plan} {done : Commit} (h : l.landing? c s = some (p, done)) :
    l.decision c s.advanceTurn = .approved p p.effects ∧
      s.advanceTurn.commit c p.effects p.interaction = .ok done := by
  unfold landing? at h
  split at h
  · cases h
  · rename_i hd
    obtain ⟨-, -, rfl⟩ := approves_of_decision hd
    split at h
    · cases h
    · rename_i hc
      cases h
      exact ⟨hd, hc⟩

theorem Line.effects_of_some {p : Plan} {done : Commit} (h : l.landing? c s = some (p, done)) :
    (l.play c s).effects = p.effects := by
  obtain ⟨hd, hc⟩ := decision_of_some h
  obtain ⟨-, o, ho, -, heffects, -⟩ := play_committed hd hc
  unfold Played.effects
  rw [ho]
  exact heffects

theorem Line.lands {p : Plan} {done : Commit} (h : l.landing? c s = some (p, done)) :
    Lands c s.advanceTurn p done := by
  obtain ⟨hd, hc⟩ := decision_of_some h
  obtain ⟨hplanned, hap, -⟩ := approves_of_decision hd
  exact ⟨hplanned, hap, hc⟩

/-- The states between the stages of landing a plan: after its own effects, after the beats, and
after the gate. -/
structure Landing (c : Catalog) (s : State) (p : Plan) (done : Commit)
    (acted beaten passed : State) : Prop where
  act : s.applyAll c p.effects = .ok acted
  beat : (acted.markRun c p.interaction).fireDue c = .ok (beaten, done.beats)
  pass : (beaten.recordSpokes c).passGate c = .ok (passed, done.transition)
  win : passed.recordVictory c = (done.state, done.victory)

theorem Lands.stages {p : Plan} {done : Commit} (h : Lands c s p done) :
    ∃ acted beaten passed, Landing c s p done acted beaten passed := by
  have h := h.commit
  unfold State.commit at h
  split at h
  · cases h
  · rename_i acted hact
    split at h
    · cases h
    · rename_i beaten beats hbeat
      split at h
      · cases h
      · rename_i passed transition hpass
        cases h
        exact ⟨acted, beaten, passed, hact, hbeat, hpass, rfl⟩

end

section
variable {c : Catalog} {s t : State}

/-- Firing the due beats fires each of them in order, and then sets the latches. -/
theorem fireAll_of_fireDue {fired : List FiredBeat} (h : s.fireDue c = .ok (t, fired)) :
    ∃ after, s.fireAll c (View.mk c s).dueBeats = .ok after ∧
      t = after.setLatches (View.mk c s).latches ∧
      fired = (View.mk c s).dueBeats.map Beat.fired := by
  unfold State.fireDue at h
  dsimp only at h
  split at h
  · cases h
  · rename_i after hafter
    cases h
    exact ⟨after, hafter, rfl, rfl⟩

/-- The step out of an act into the next one, through its gate beat if that is still to fire. -/
inductive PassedGate (c : Catalog) (s : State) (current next : Act) :
    State → Option FiredBeat → Prop
  | plain (h : (View.mk c s).pendingGateBeat? current = none) :
      PassedGate c s current next (s.enterAct next.id) none
  | beaten {b : Beat} {after : State} (h : (View.mk c s).pendingGateBeat? current = some b)
      (hb : s.fire c b = .ok after) :
      PassedGate c s current next (after.enterAct next.id) (some b.fired)

/-- At the gate, either nothing happens, or the gate is open and the next act is entered. -/
theorem passGate_cases {step : Option Transition} (h : s.passGate c = .ok (t, step)) :
    (t = s ∧ step = none) ∨
    ∃ current next beat, (View.mk c s).openGate? = some (current, next) ∧
      PassedGate c s current next t beat ∧ step.bind (·.gateBeat) = beat ∧
      step.map (fun x => (x.origin, x.destination)) = some (current.id, next.id) := by
  unfold State.passGate at h
  dsimp only at h
  split at h
  · cases h
    exact .inl ⟨rfl, rfl⟩
  · rename_i current next hgate
    split at h
    · rename_i hbeat
      cases h
      exact .inr ⟨current, next, none, hgate, .plain hbeat, rfl, rfl⟩
    · rename_i b hbeat
      split at h
      · cases h
      · rename_i after hafter
        cases h
        exact .inr ⟨current, next, _, hgate, .beaten hbeat hafter, rfl, rfl⟩

/-- An open gate leads from the current act, whose gate holds, to the one declared after it. -/
theorem of_openGate? {v : View} {current next : Act} (h : v.openGate? = some (current, next)) :
    v.catalog.acts.get? v.state.act = some current ∧ v.catalog.nextAct? current.id = some next ∧
      v.gateHolds current = true := by
  unfold View.openGate? at h
  obtain ⟨current', hcurrent, h⟩ := Option.bind_eq_some_iff.1 h
  obtain ⟨next', hnext, h⟩ := Option.bind_eq_some_iff.1 h
  split at h
  · rename_i hholds
    cases h
    exact ⟨hcurrent, hnext, hholds⟩
  · cases h

theorem mem_acts_of_nextAct? {a : EntityId} {next : Act} (h : c.nextAct? a = some next) :
    next ∈ c.acts.toList := by
  obtain ⟨i, -, h⟩ := Option.bind_eq_some_iff.1 h
  exact List.mem_of_getElem? h

theorem of_mem_dueBeats {v : View} {b : Beat} (h : b ∈ v.dueBeats) :
    b ∈ v.catalog.beats.toList ∧ v.catalog.isGateBeat b.id = false ∧ v.holds b.trigger = true := by
  obtain ⟨hwatched, hdue⟩ := List.mem_filter.1 h
  obtain ⟨hmem, hgate⟩ := List.mem_filter.1 hwatched
  exact ⟨hmem, by simpa using hgate, (Bool.and_eq_true_iff.1 hdue).1⟩

theorem of_mem_newSpokes {v : View} {x : EntityId} (h : x ∈ v.newSpokes) :
    ∃ d, v.catalog.spokes.get? x = some d ∧ v.holds d.condition = true := by
  obtain ⟨d, hd, rfl⟩ := List.mem_map.1 h
  obtain ⟨hd, hholds⟩ := List.mem_filter.1 hd
  have hmem := (List.mem_filter.1 hd).1
  exact ⟨d, Table.get?_eq_some_iff.2 ⟨hmem, rfl⟩, (Bool.and_eq_true_iff.1 hholds).2⟩

theorem of_pendingGateBeat? {v : View} {a : Act} {b : Beat} (h : v.pendingGateBeat? a = some b) :
    a.gateBeat = some b.id ∧ b ∈ v.catalog.beats.toList ∧ b.id ∉ v.state.firedBeats := by
  unfold View.pendingGateBeat? at h
  obtain ⟨h, hfired⟩ := Option.filter_eq_some_iff.1 h
  obtain ⟨id, hid, h⟩ := Option.bind_eq_some_iff.1 h
  obtain ⟨hb, rfl⟩ := Table.get?_eq_some_iff.1 h
  exact ⟨hid, hb, by simpa using hfired⟩

theorem markRun_cases (c : Catalog) (s : State) (x : Option EntityId) :
    s.markRun c x = s ∨
    ∃ d, x.bind c.interactions.get? = some d ∧ d.repeatable = false ∧
      s.markRun c x = s.markUsed d.id := by
  unfold State.markRun
  cases hd : (x.bind c.interactions.get?).filter (!·.repeatable) with
  | none => exact .inl rfl
  | some d =>
    obtain ⟨hd, honce⟩ := Option.filter_eq_some_iff.1 hd
    exact .inr ⟨d, hd, by simpa using honce, rfl⟩

theorem recordVictory_cases {won : Option Victory} (h : s.recordVictory c = (t, won)) :
    (t = s ∧ won = none) ∨
    ∃ d ∈ c.victory.toList, (View.mk c s).holds d.condition = true ∧ t = s.setVictory d.id ∧
      won = some d := by
  unfold State.recordVictory at h
  split at h
  · cases h
    exact .inl ⟨rfl, rfl⟩
  · rename_i d hd
    cases h
    unfold View.newVictory? at hd
    split at hd
    · cases hd
    · have hholds := List.find?_some hd
      exact .inr ⟨d, List.mem_of_find?_eq_some hd, hholds, rfl, rfl⟩

/-! What the small stages of a landing leave alone -/

theorem State.exists_markRun_eq (c : Catalog) (s : State) (x : Option EntityId) :
    ∃ usedInteractions, s.markRun c x = { s with usedInteractions } := by
  rcases markRun_cases c s x with hsame | ⟨d, -, -, hmarked⟩
  · exact ⟨_, hsame⟩
  · exact ⟨_, hmarked⟩

theorem State.exists_setLatches_eq (s : State) (ls : List (EntityId × Bool)) :
    ∃ latchedBeats, s.setLatches ls = { s with latchedBeats } := by
  unfold State.setLatches
  induction ls generalizing s with
  | nil => exact ⟨_, rfl⟩
  | cons l ls ih =>
    obtain ⟨_, hsame⟩ := ih (s.setLatch l.1 l.2)
    exact ⟨_, hsame⟩

theorem State.exists_recordSpokes_eq (c : Catalog) (s : State) :
    ∃ completedSpokes, s.recordSpokes c = { s with completedSpokes } := by
  unfold State.recordSpokes
  generalize (View.mk c s).newSpokes = xs
  induction xs generalizing s with
  | nil => exact ⟨_, rfl⟩
  | cons x xs ih =>
    obtain ⟨_, hsame⟩ := ih (s.completeSpoke x)
    exact ⟨_, hsame⟩

theorem State.exists_recordVictory_eq {won : Option Victory} (h : s.recordVictory c = (t, won)) :
    ∃ victory, t = { s with victory } := by
  rcases recordVictory_cases h with ⟨rfl, -⟩ | ⟨d, -, -, rfl, -⟩
  · exact ⟨_, rfl⟩
  · exact ⟨_, rfl⟩

end

/-! ### What the stages keep -/

section
variable {c : Catalog} {s t : State} {P : State → Prop}
  (heffect : ∀ e s t, P s → s.apply c e = .ok t → P t)
  (hnote : ∀ (s : State) firedBeats latchedBeats completedSpokes, P s →
    P { s with firedBeats, latchedBeats, completedSpokes })
include heffect

theorem State.keeps_applyAll {es : List Effect} (hs : P s) (h : s.applyAll c es = .ok t) : P t := by
  induction es generalizing s with
  | nil => cases h; exact hs
  | cons e es ih =>
    obtain ⟨m, he, h⟩ := applyAll_cons_eq_ok_iff.1 h
    exact ih (heffect e s m hs he) h

include hnote

theorem State.keeps_fire {b : Beat} (hs : P s) (h : s.fire c b = .ok t) : P t := by
  obtain ⟨m, hes, rfl⟩ := fire_eq_ok_iff.1 h
  rw [markFired_eq]
  exact hnote _ _ _ _ (keeps_applyAll heffect hs hes)

theorem State.keeps_fireAll {bs : List Beat} (hs : P s) (h : s.fireAll c bs = .ok t) : P t := by
  induction bs generalizing s with
  | nil => cases h; exact hs
  | cons b bs ih =>
    obtain ⟨m, hb, h⟩ := fireAll_cons_eq_ok_iff.1 h
    exact ih (keeps_fire heffect hnote hs hb) h

/-- What effects keep, and the notes on beats and spokes, is kept up to the gate. The mark on the
interaction lies between. -/
theorem Landing.keeps_to_gate {p : Plan} {done : Commit} {acted beaten passed : State}
    (h : Landing c s p done acted beaten passed) :
    (P s → P acted) ∧ (P (acted.markRun c p.interaction) → P (beaten.recordSpokes c)) := by
  refine ⟨fun hs => State.keeps_applyAll heffect hs h.act, fun hs => ?_⟩
  obtain ⟨after, hafter, rfl, -⟩ := fireAll_of_fireDue h.beat
  have hfired := State.keeps_fireAll heffect hnote hs hafter
  obtain ⟨latchedBeats, hlatch⟩ :=
    after.exists_setLatches_eq (View.mk c (acted.markRun c p.interaction)).latches
  rw [hlatch]
  obtain ⟨_, hspokes⟩ := State.exists_recordSpokes_eq c { after with latchedBeats }
  rw [hspokes]
  exact hnote after _ latchedBeats _ hfired

end

/-! ### Single changes -/

/-- One change that a turn makes to the store. -/
inductive Touch (c : Catalog) (s : State) : State → Prop
  | counted : Touch c s s.advanceTurn
  | applied {t : State} (e : Effect) (h : s.apply c e = .ok t) : Touch c s t
  | used (d : Interaction) (h : d ∈ c.interactions.toList) : Touch c s (s.markUsed d.id)
  | fired (b : Beat) (h : b ∈ c.beats.toList) : Touch c s (s.markFired b.id)
  | latched (b : Beat) (h : b ∈ c.beats.toList) (on : Bool) : Touch c s (s.setLatch b.id on)
  | recorded (d : Spoke) (h : d ∈ c.spokes.toList) : Touch c s (s.completeSpoke d.id)
  | entered (a : Act) (h : a ∈ c.acts.toList) : Touch c s (s.enterAct a.id)
  | won (d : Victory) (h : d ∈ c.victory.toList) : Touch c s (s.setVictory d.id)

/-- A single change other than that of the turn counter. -/
def Quiet (c : Catalog) (s t : State) : Prop := Touch c s t ∧ t.turn = s.turn

/-- Single changes lead from one state to another while the turn counter stands still. -/
abbrev Chain (c : Catalog) : State → State → Prop := Relation.ReflTransGen (Quiet c)

theorem Chain.turn_eq {c : Catalog} {s t : State} (h : Chain c s t) : t.turn = s.turn := by
  induction h with
  | refl => rfl
  | tail _ hquiet ih => rw [hquiet.2, ih]

/-! ### Courses of effects -/

/-- The player, the flags, the counters and the entities are left alone. -/
structure State.SameScene (s t : State) : Prop where
  location : t.location = s.location
  inventory : t.inventory = s.inventory
  flags : t.flags = s.flags
  counters : t.counters = s.counters
  overrides : t.overrides = s.overrides

/-- The effects that are applied on the way from one state to another, in order. The changes between
them leave the scene alone, and the turn counter stands still. -/
inductive Course (c : Catalog) (s : State) : List Effect → State → Prop
  | refl : Course c s [] s
  | applied {es : List Effect} {m t : State} (h : Course c s es m) (e : Effect)
      (he : m.apply c e = .ok t) : Course c s (es ++ [e]) t
  | noted {es : List Effect} {m t : State} (h : Course c s es m) (hm : Touch c m t)
      (hturn : t.turn = m.turn) (hscene : m.SameScene t) : Course c s es t

namespace Course

variable {c : Catalog} {s m t : State} {es fs : List Effect}

theorem trans (h : Course c s es m) (hm : Course c m fs t) : Course c s (es ++ fs) t := by
  induction hm with
  | refl => rwa [List.append_nil]
  | applied _ e he ih =>
    rw [← List.append_assoc]
    exact ih.applied e he
  | noted _ hn hturn hscene ih => exact ih.noted hn hturn hscene

theorem chain (h : Course c s es t) : Chain c s t := by
  induction h with
  | refl => exact .refl
  | applied _ e he ih =>
    refine ih.tail ⟨.applied e he, ?_⟩
    obtain ⟨-, -, rfl⟩ := State.apply_eq_ok_iff.1 he
    obtain ⟨_, _, _, _, _, hsame⟩ := State.exists_change_eq (c := c) _ e
    rw [hsame]
  | noted _ hn hturn _ ih => exact ih.tail ⟨hn, hturn⟩

/-- What the effects of a course keep, and every change that leaves the scene alone, the course
keeps. -/
theorem keeps {P : State → Prop} (h : Course c s es t) (hs : P s)
    (heffect : ∀ e ∈ es, ∀ s t, P s → s.apply c e = .ok t → P t)
    (hscene : ∀ s t, P s → Touch c s t → s.SameScene t → P t) : P t := by
  induction h with
  | refl => exact hs
  | applied _ e he ih =>
    refine heffect e (by simp) _ _ (ih fun e he => heffect e (by simp [he])) he
  | noted _ hn _ hsame ih => exact hscene _ _ (ih heffect) hn hsame

theorem note (h : Touch c s t) (hturn : t.turn = s.turn) (hscene : s.SameScene t) :
    Course c s [] t := refl.noted h hturn hscene

theorem applyAll (h : s.applyAll c es = .ok t) : Course c s es t := by
  induction es generalizing s with
  | nil => cases h; exact .refl
  | cons e es ih =>
    obtain ⟨m, he, h⟩ := State.applyAll_cons_eq_ok_iff.1 h
    exact (refl.applied e he).trans (ih h)

theorem markRun (i : Option EntityId) : Course c s [] (s.markRun c i) := by
  rcases markRun_cases c s i with hsame | ⟨d, hd, -, hmarked⟩
  · rw [hsame]
    exact .refl
  · obtain ⟨id, -, hd⟩ := Option.bind_eq_some_iff.1 hd
    rw [hmarked]
    exact note (.used d (Table.mem_of_get? hd)) rfl ⟨rfl, rfl, rfl, rfl, rfl⟩

theorem fire {b : Beat} (hb : b ∈ c.beats.toList) (h : s.fire c b = .ok t) :
    Course c s b.effects t := by
  obtain ⟨m, hes, rfl⟩ := State.fire_eq_ok_iff.1 h
  refine (applyAll hes).noted (.fired b hb) ?_ ?_
  · rw [State.markFired_eq]
  · rw [State.markFired_eq]
    exact ⟨rfl, rfl, rfl, rfl, rfl⟩

theorem fireAll {bs : List Beat} (hbs : ∀ b ∈ bs, b ∈ c.beats.toList)
    (h : s.fireAll c bs = .ok t) : Course c s (bs.flatMap (·.effects)) t := by
  induction bs generalizing s with
  | nil => cases h; exact .refl
  | cons b bs ih =>
    obtain ⟨m, hb, h⟩ := State.fireAll_cons_eq_ok_iff.1 h
    rw [List.flatMap_cons]
    exact (fire (hbs b (.head _)) hb).trans (ih (fun b hb => hbs b (.tail _ hb)) h)

theorem setLatches {ls : List (EntityId × Bool)}
    (hls : ∀ l ∈ ls, ∃ b ∈ c.beats.toList, b.id = l.1) : Course c s [] (s.setLatches ls) := by
  unfold State.setLatches
  induction ls generalizing s with
  | nil => exact .refl
  | cons l ls ih =>
    obtain ⟨b, hb, hl⟩ := hls l (.head _)
    have hlatch : Course c s [] (s.setLatch l.1 l.2) :=
      hl ▸ note (.latched b hb l.2) rfl ⟨rfl, rfl, rfl, rfl, rfl⟩
    exact hlatch.trans (ih fun l hl => hls l (.tail _ hl))

theorem fireDue {fired : List FiredBeat} (h : s.fireDue c = .ok (t, fired)) :
    Course c s (fired.flatMap (·.effects)) t := by
  obtain ⟨after, hafter, rfl, rfl⟩ := fireAll_of_fireDue h
  have hdue : ∀ b ∈ (View.mk c s).dueBeats, b ∈ c.beats.toList :=
    fun b hb => (of_mem_dueBeats hb).1
  rw [List.flatMap_map, ← List.append_nil (List.flatMap _ _)]
  refine (fireAll hdue hafter).trans (setLatches fun l hl => ?_)
  obtain ⟨b, hb, rfl⟩ := List.mem_map.1 hl
  exact ⟨b, (List.mem_filter.1 (List.mem_filter.1 hb).1).1, rfl⟩

theorem recordSpokes : Course c s [] (s.recordSpokes c) := by
  unfold State.recordSpokes
  have hnew : ∀ x ∈ (View.mk c s).newSpokes, ∃ d ∈ c.spokes.toList, d.id = x := by
    intro x hx
    obtain ⟨d, hd, -⟩ := of_mem_newSpokes hx
    exact ⟨d, Table.mem_of_get? hd, Table.id_of_get? hd⟩
  generalize (View.mk c s).newSpokes = xs at hnew
  induction xs generalizing s with
  | nil => exact .refl
  | cons x xs ih =>
    obtain ⟨d, hd, rfl⟩ := hnew x (.head _)
    have hspoke : Course c s [] (s.completeSpoke d.id) :=
      note (.recorded d hd) rfl ⟨rfl, rfl, rfl, rfl, rfl⟩
    exact hspoke.trans (ih fun x hx => hnew x (.tail _ hx))

theorem passGate {step : Option Transition} (h : s.passGate c = .ok (t, step)) :
    Course c s ((step.bind (·.gateBeat)).toList.flatMap (·.effects)) t := by
  rcases passGate_cases h with ⟨rfl, rfl⟩ | ⟨current, next, beat, hgate, hpass, hbeat, -⟩
  · exact .refl
  · have hnext := mem_acts_of_nextAct? (of_openGate? hgate).2.1
    rw [hbeat]
    cases hpass with
    | plain => exact note (.entered next hnext) rfl ⟨rfl, rfl, rfl, rfl, rfl⟩
    | beaten hb hfire =>
      rw [Option.toList_some, List.flatMap_singleton]
      exact (fire (of_pendingGateBeat? hb).2.1 hfire).noted (.entered next hnext) rfl
        ⟨rfl, rfl, rfl, rfl, rfl⟩

theorem recordVictory {won : Option Victory} (h : s.recordVictory c = (t, won)) :
    Course c s [] t := by
  rcases recordVictory_cases h with ⟨rfl, -⟩ | ⟨d, hd, -, rfl, -⟩
  · exact .refl
  · exact note (.won d hd) rfl ⟨rfl, rfl, rfl, rfl, rfl⟩

end Course

section
variable {c : Catalog} {s acted beaten passed : State} {p : Plan} {done : Commit}

/-- After the effects of the plan, landing it applies those of the beats that fire; that of the gate
is the last. -/
theorem Landing.course_beats (h : Landing c s p done acted beaten passed) :
    Course c acted
      ((done.beats ++ (done.transition.bind (·.gateBeat)).toList).flatMap (·.effects))
      done.state := by
  have hbeaten := (Course.markRun p.interaction).trans (Course.fireDue h.beat)
  have hpassed := Course.recordSpokes.trans (Course.passGate h.pass)
  rw [List.flatMap_append, ← List.append_nil (List.flatMap _ (Option.toList _))]
  exact hbeaten.trans (hpassed.trans (Course.recordVictory h.win))

theorem Landing.course (h : Landing c s p done acted beaten passed) :
    Course c s
      (p.effects ++
        (done.beats ++ (done.transition.bind (·.gateBeat)).toList).flatMap (·.effects))
      done.state := (Course.applyAll h.act).trans h.course_beats

theorem Landing.exists_beat (h : Landing c s p done acted beaten passed) {f : FiredBeat}
    (hf : f ∈ done.beats ++ (done.transition.bind (·.gateBeat)).toList) :
    ∃ b ∈ c.beats.toList, b.fired = f := by
  rcases List.mem_append.1 hf with hf | hf
  · obtain ⟨after, -, -, hfired⟩ := fireAll_of_fireDue h.beat
    rw [hfired] at hf
    obtain ⟨b, hb, rfl⟩ := List.mem_map.1 hf
    exact ⟨b, (of_mem_dueBeats hb).1, rfl⟩
  · rcases passGate_cases h.pass with ⟨-, hstep⟩ | ⟨current, next, beat, -, hpass, hbeat, -⟩
    · rw [hstep] at hf
      cases hf
    · rw [hbeat] at hf
      cases hpass with
      | plain => cases hf
      | beaten hpending _ =>
        obtain rfl := List.mem_singleton.1 hf
        exact ⟨_, (of_pendingGateBeat? hpending).2.1, rfl⟩

theorem Landing.beats_authored (h : Landing c s p done acted beaten passed) {f : FiredBeat}
    (hf : f ∈ done.beats ++ (done.transition.bind (·.gateBeat)).toList) :
    ∃ b ∈ c.beats.toList, b.effects = f.effects := by
  obtain ⟨b, hb, rfl⟩ := h.exists_beat hf
  exact ⟨b, hb, rfl⟩

theorem Chain.lands (h : Lands c s p done) : Chain c s done.state := by
  obtain ⟨_, _, _, hl⟩ := h.stages
  exact hl.course.chain

end

/-- `P` is kept by every single change of the store. -/
def Kept (c : Catalog) (P : State → Prop) : Prop := ∀ s t, P s → Touch c s t → P t

namespace Kept

variable {c : Catalog} {P : State → Prop} {s t : State} (hP : Kept c P)
include hP

theorem chain (hs : P s) (h : Chain c s t) : P t := by
  induction h with
  | refl => exact hs
  | tail _ hquiet ih => exact hP _ _ ih hquiet.1

theorem play {l : Line} (hs : P s) : P (l.play c s).state := by
  have hs' : P s.advanceTurn := hP _ _ hs .counted
  cases hl : l.landing? c s with
  | none => rw [(Line.play_of_none hl).1]; exact hs'
  | some x =>
    rw [(Line.play_of_some hl).1]
    exact hP.chain hs' (.lands (Line.lands hl))

/-- What every single change of the store keeps, every run keeps. -/
theorem reaches (hs : P s) (h : Reaches c s t) : P t := by
  induction h with
  | refl => exact hs
  | turn _ l ih => exact hP.play ih

end Kept

end Storyworld
