import Mathlib.Data.List.Induction
import Storyworld.Proofs.ActHistory
import Storyworld.Proofs.Opening

/-!
# Progress

What is noted of a story stays noted. The lists of the acts reached and of the beats fired grow at
their ends, and the sets of the spokes recorded and of the interactions run grow, with every single
change of the store (`State.Recalls`). The current act may go back inside a turn, from where a gate
beat has gone to the act that its gate leads into, but that act comes after the one in which the
turn began, so from turn to turn it goes forward (`Line.noLater_play`). A victory is recorded once
(`Line.victory_play`).
-/

namespace Storyworld

/-- An act is another one, or is declared before it. -/
def Catalog.NoLater (c : Catalog) (a b : EntityId) : Prop :=
  a = b ∨ ∃ i j, c.acts.position? a = some i ∧ c.acts.position? b = some j ∧ i < j

/-- Every act adds to what is within reach, and none takes anything away. -/
def Catalog.Cumulative (c : Catalog) : Prop :=
  ∀ a ∈ c.acts.toList, a.mode = .additive ∧ a.excludeLocations = [] ∧ a.excludeCharacters = []

/-- What is noted in one state is noted in another. -/
structure State.Recalls (s t : State) : Prop where
  reachedActs : s.reachedActs <+: t.reachedActs
  firedBeats : s.firedBeats <+: t.firedBeats
  completedSpokes : ∀ x ∈ s.completedSpokes, x ∈ t.completedSpokes
  usedInteractions : ∀ x ∈ s.usedInteractions, x ∈ t.usedInteractions

/-! ### Notes -/

namespace State.Recalls

variable {s t u : State}

theorem refl (s : State) : s.Recalls s :=
  ⟨List.prefix_rfl, List.prefix_rfl, fun _ => id, fun _ => id⟩

theorem trans (h : s.Recalls t) (h' : t.Recalls u) : s.Recalls u where
  reachedActs := h.reachedActs.trans h'.reachedActs
  firedBeats := h.firedBeats.trans h'.firedBeats
  completedSpokes x hx := h'.completedSpokes x (h.completedSpokes x hx)
  usedInteractions x hx := h'.usedInteractions x (h.usedInteractions x hx)

theorem change (c : Catalog) (s : State) (e : Effect) : s.Recalls (s.change c e) := by
  have hacts := s.prefix_reachedActs_change (c := c) e
  obtain ⟨_, _, _, _, _, hsame⟩ := s.exists_change_eq (c := c) e
  rw [hsame] at hacts ⊢
  refine ⟨hacts, List.prefix_rfl, fun x hx => ?_, fun _ => id⟩
  cases e with
  | completeSpoke y => exact SortedSet.mem_insert.2 (.inr hx)
  | _ => exact hx

theorem of_touch {c : Catalog} (h : Touch c s t) : s.Recalls t := by
  cases h with
  | applied e h =>
    obtain ⟨-, -, rfl⟩ := State.apply_eq_ok_iff.1 h
    exact change c s e
  | used d hd =>
    exact { refl s with usedInteractions := fun x hx => SortedSet.mem_insert.2 (.inr hx) }
  | fired b hb =>
    rw [State.markFired_eq]
    refine { refl s with firedBeats := ?_ }
    dsimp only
    split
    · exact List.prefix_rfl
    · exact List.prefix_append _ _
  | recorded d hd =>
    exact { refl s with completedSpokes := fun x hx => SortedSet.mem_insert.2 (.inr hx) }
  | entered a ha => exact { refl s with reachedActs := s.prefix_reachedActs_enterAct a.id }
  | counted | latched | won => exact { refl s with }

theorem reaches {c : Catalog} (h : Reaches c s t) : s.Recalls t :=
  Kept.reaches (P := s.Recalls) (fun _ _ hs htouch => hs.trans (of_touch htouch)) (refl s) h

end State.Recalls

/-! ### The current act -/

section
variable {c : Catalog} {s t : State} {a b d : EntityId}

theorem Catalog.NoLater.refl (c : Catalog) (a : EntityId) : c.NoLater a a := .inl rfl

theorem Catalog.NoLater.trans (h : c.NoLater a b) (h' : c.NoLater b d) : c.NoLater a d := by
  rcases h with rfl | ⟨i, j, hi, hj, hij⟩
  · exact h'
  · rcases h' with rfl | ⟨j', k, hj', hk, hjk⟩
    · exact .inr ⟨i, j, hi, hj, hij⟩
    · obtain rfl : j = j' := Option.some.inj (hj.symm.trans hj')
      exact .inr ⟨i, k, hi, hk, hij.trans hjk⟩

theorem Catalog.noLater_of_nextAct? {next : Act} (h : c.nextAct? a = some next) :
    c.NoLater a next.id := by
  obtain ⟨i, hi, hnext⟩ := Option.bind_eq_some_iff.1 h
  exact .inr ⟨i, i + 1, hi, Catalog.position?_id hnext, i.lt_succ_self⟩

theorem State.noLater_advanceTo (s : State) (a : EntityId) :
    c.NoLater s.act (s.advanceTo c a).act := by
  cases hi : c.acts.position? s.act with
  | none => simp [advanceTo, hi, Catalog.NoLater.refl]
  | some i =>
    cases hj : c.acts.position? a with
    | none => simp [advanceTo, hi, hj, Catalog.NoLater.refl]
    | some j =>
      rw [advanceTo_eq a hi hj]
      split
      · rename_i hij
        exact .inr ⟨i, j, hi, hj, hij⟩
      · exact .refl c s.act

theorem State.noLater_change (s : State) (e : Effect) : c.NoLater s.act (s.change c e).act := by
  obtain ⟨a, rfl⟩ | he := e.eq_advanceAct_or_ne
  · exact s.noLater_advanceTo a
  · obtain ⟨_, _, _, hsame⟩ := s.exists_change_eq_of_ne_advanceAct (c := c) he
    rw [hsame]
    exact .refl c s.act

/-- The gate leads into an act that comes after the current one, wherever the gate beat went. -/
theorem State.noLater_passGate {step : Option Transition} (h : s.passGate c = .ok (t, step)) :
    c.NoLater s.act t.act := by
  rcases passGate_cases h with ⟨rfl, -⟩ | ⟨current, next, beat, hopen, hpass, -, -⟩
  · exact .refl c t.act
  · obtain ⟨hcurrent, hnext, -⟩ := of_openGate? hopen
    rw [show current.id = s.act from Table.id_of_get? hcurrent] at hnext
    have hentered : t.act = next.id := by
      cases hpass <;> rfl
    rw [hentered]
    exact Catalog.noLater_of_nextAct? hnext

theorem Landing.noLater {p : Plan} {done : Commit} {acted beaten passed : State}
    (h : Landing c s p done acted beaten passed) : c.NoLater s.act done.state.act := by
  obtain ⟨hact, hgate⟩ := h.keeps_to_gate (P := fun m => c.NoLater s.act m.act)
    (fun e m m' hm he => by
      obtain ⟨-, -, rfl⟩ := State.apply_eq_ok_iff.1 he
      exact hm.trans (m.noLater_change e))
    fun _ _ _ _ => id
  obtain ⟨_, hmark⟩ := State.exists_markRun_eq c acted p.interaction
  obtain ⟨_, hwon⟩ := State.exists_recordVictory_eq h.win
  rw [hmark] at hgate
  have hpassed : c.NoLater s.act passed.act :=
    (hgate (hact (.refl c s.act))).trans (State.noLater_passGate h.pass)
  rw [hwon]
  exact hpassed

theorem Line.noLater_play (l : Line) (s : State) : c.NoLater s.act (l.play c s).state.act := by
  cases hl : l.landing? c s with
  | none =>
    rw [(Line.play_of_none hl).1]
    exact .refl c s.act
  | some x =>
    obtain ⟨_, _, _, hstages⟩ := (Line.lands hl).stages
    rw [(Line.play_of_some hl).1]
    exact hstages.noLater

/-! ### The victory -/

/-- The interactions that have run, and the victory, are these. -/
structure State.Marked (used : SortedSet EntityId) (victory : Option EntityId) (s : State) :
    Prop where
  used : s.usedInteractions = used
  victory : s.victory = victory

/-- Apart from the mark on the interaction of the plan, nothing is marked before the victory is. -/
theorem Landing.marked {p : Plan} {done : Commit} {acted beaten passed : State}
    (h : Landing c s p done acted beaten passed) {used : SortedSet EntityId}
    {victory : Option EntityId} :
    (s.Marked used victory → acted.Marked used victory) ∧
      ((acted.markRun c p.interaction).Marked used victory → passed.Marked used victory) := by
  have heffect : ∀ e (m m' : State), m.Marked used victory → m.apply c e = .ok m' →
      m'.Marked used victory := by
    intro e m m' hm he
    obtain ⟨-, -, rfl⟩ := State.apply_eq_ok_iff.1 he
    obtain ⟨_, _, _, _, _, hsame⟩ := m.exists_change_eq (c := c) e
    rw [hsame]
    exact { hm with }
  have hnote : ∀ (m : State) firedBeats latchedBeats completedSpokes, m.Marked used victory →
      State.Marked used victory { m with firedBeats, latchedBeats, completedSpokes } :=
    fun _ _ _ _ hm => { hm with }
  obtain ⟨hact, hgate⟩ := h.keeps_to_gate heffect hnote
  refine ⟨hact, fun hmarked => ?_⟩
  have hspokes := hgate hmarked
  rcases passGate_cases h.pass with ⟨rfl, -⟩ | ⟨current, next, beat, -, hpass, -, -⟩
  · exact hspokes
  · cases hpass with
    | plain => exact { hspokes with }
    | beaten hb hfire => exact { State.keeps_fire heffect hnote hspokes hfire with }

theorem State.victory_recordVictory {won : Option Victory} (h : s.recordVictory c = (t, won)) :
    t.victory.toList = s.victory.toList ++ (won.map (·.id)).toList := by
  unfold recordVictory at h
  split at h
  · cases h
    simp
  · rename_i d hd
    cases h
    -- A victory is new only where none is on record.
    cases hv : s.victory with
    | none => rfl
    | some v => simp [View.newVictory?, hv] at hd

/-- The victory that a turn records is the one on record after it, and none was on record before. -/
theorem Line.victory_play (l : Line) (s : State) :
    (l.play c s).state.victory.toList = s.victory.toList ++ (l.play c s).victory?.toList := by
  cases hl : l.landing? c s with
  | none =>
    obtain ⟨hstate, -, hvictory⟩ := Line.play_of_none hl
    rw [hstate, hvictory, Option.toList_none, List.append_nil]
    rfl
  | some x =>
    obtain ⟨p, done⟩ := x
    obtain ⟨hstate, -⟩ := Line.play_of_some hl
    obtain ⟨acted, beaten, passed, hstages⟩ := (Line.lands hl).stages
    have hacted := hstages.marked.1 ⟨rfl, rfl⟩
    obtain ⟨_, hmark⟩ := State.exists_markRun_eq c acted p.interaction
    have hpassed := hstages.marked.2 ⟨rfl, by rw [hmark]⟩
    have hwon := State.victory_recordVictory hstages.win
    rw [hstate, Line.victory?_of_some hl, hwon, hpassed.victory, hacted.victory]
    rfl

theorem Reaches.victory_eq (h : Reaches c s t) {v : EntityId} (hv : s.victory = some v) :
    t.victory = some v := by
  induction h with
  | refl => exact hv
  | @turn m _ l ih =>
    have hwon := l.victory_play (c := c) m
    rw [ih] at hwon
    cases hnew : (l.play c m).state.victory with
    | none => simp [hnew] at hwon
    | some v' =>
      rw [hnew] at hwon
      obtain ⟨rfl, -⟩ := List.cons.inj hwon
      rfl

/-! ### What is within reach -/

/-- Acts that only add leave within reach what was. -/
theorem View.mem_reachableBy_of_prefix {sets : Act → List EntityId × List EntityId}
    {as bs : List Act} (h : as <+: bs) (hadd : ∀ a ∈ bs, a.mode = .additive ∧ (sets a).2 = [])
    {x : EntityId} (hx : x ∈ reachableBy sets as) : x ∈ reachableBy sets bs := by
  obtain ⟨later, rfl⟩ := h
  induction later using List.reverseRecOn with
  | nil => rwa [List.append_nil]
  | append_singleton later a ih =>
    obtain ⟨hmode, hnone⟩ := hadd a (by simp)
    rw [← List.append_assoc, mem_reachableBy_concat, hmode, hnone]
    refine ⟨.inl ⟨by decide, ih fun b hb => hadd b ?_⟩, List.not_mem_nil⟩
    rw [← List.append_assoc]
    exact List.mem_append_left _ hb

theorem State.Recalls.prefix_reachedActs (h : s.Recalls t) :
    (View.mk c s).reachedActs <+: (View.mk c t).reachedActs := h.reachedActs.filterMap _

theorem View.declared_of_mem_reachedActs {v : View} {a : Act} (h : a ∈ v.reachedActs) :
    a ∈ v.catalog.acts.toList := by
  obtain ⟨id, -, ha⟩ := List.mem_filterMap.1 h
  exact Table.mem_of_get? ha

end

/-- Through every turn, and so through every run of turns, nothing goes back: the current act stays
or a later one is current, what is noted stays noted, and the victory stays. Where acts only add to
what is within reach, what is within reach stays so. -/
theorem progress_stays {c : Catalog} {s t : State} (h : Reaches c s t) :
    c.NoLater s.act t.act ∧ s.Recalls t ∧ (∀ v ∈ s.victory, t.victory = some v) ∧
      (c.Cumulative →
        (∀ x ∈ (View.mk c s).reachableLocations, x ∈ (View.mk c t).reachableLocations) ∧
        ∀ x ∈ (View.mk c s).reachableCharacters, x ∈ (View.mk c t).reachableCharacters) := by
  have hnotes := State.Recalls.reaches h
  refine ⟨?_, hnotes, fun v hv => h.victory_eq hv, fun hadd => ⟨fun x => ?_, fun x => ?_⟩⟩
  · induction h with
    | refl => exact .refl c s.act
    | turn h l ih => exact (ih (.reaches h)).trans (l.noLater_play _)
  · refine View.mem_reachableBy_of_prefix hnotes.prefix_reachedActs fun a ha => ?_
    obtain ⟨hmode, hlocations, -⟩ := hadd a (View.declared_of_mem_reachedActs ha)
    exact ⟨hmode, hlocations⟩
  · refine View.mem_reachableBy_of_prefix hnotes.prefix_reachedActs fun a ha => ?_
    obtain ⟨hmode, -, hcharacters⟩ := hadd a (View.declared_of_mem_reachedActs ha)
    exact ⟨hmode, hcharacters⟩

/-- The ferry that crosses to the dusk and is back at noon has left the dawn behind all the same. -/
theorem ferry_leaves_dawn :
    let c := ferry "dusk"
    let s := State.initial c
    let t := (Line.play c { input := "look" } s).state
    Reaches c s t ∧ c.Cumulative ∧ s.act = "dawn" ∧ t.act = "noon" ∧ c.NoLater "dawn" "noon" ∧
      s.Recalls t ∧ "quay" ∈ (View.mk c s).reachableLocations ∧
      "quay" ∈ (View.mk c t).reachableLocations := by
  intro c s t
  have ht : Reaches c s t := .turn .refl _
  have hadd : c.Cumulative := by
    unfold Catalog.Cumulative
    decide
  have hdawn : s.act = "dawn" := by decide
  have hnoon : t.act = "noon" := by decide +kernel
  have hquay : "quay" ∈ (View.mk c s).reachableLocations := by decide +kernel
  obtain ⟨hact, hnotes, -, hreach⟩ := progress_stays ht
  rw [hdawn, hnoon] at hact
  exact ⟨ht, hadd, hdawn, hnoon, hact, hnotes, hquay, (hreach hadd).1 _ hquay⟩

end Storyworld
