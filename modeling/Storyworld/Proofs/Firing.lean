import Storyworld.Proofs.Accepted
import Storyworld.Proofs.Atomicity

/-!
# When beats fire

A committed turn looks at the beats once, in the view that `Line.watch?` gives, and `watches` lists
these views over a run. The store keeps of them what the next look needs to know: which beats have
fired, and what the trigger of each repeatable beat was at the last look (`Remembers`). So a beat
fires when its trigger holds for the first time, or, if it is repeatable, when its trigger holds and
did not hold at the look before; a gate beat fires at its gate and nowhere else, and once
(`fires_exactly`).
-/

namespace Storyworld

/-- The turn fires the beat, because it is due or at a gate. -/
def Played.Fires (p : Played) (b : EntityId) : Prop := b ∈ p.beats.map (·.id)

instance (p : Played) (b : EntityId) : Decidable (p.Fires b) := inferInstanceAs (Decidable (_ ∈ _))

theorem Played.fires_iff {p : Played} {b : EntityId} :
    p.Fires b ↔
      b ∈ p.dueBeats.map (·.id) ∨ ∃ f ∈ p.transition?.bind (·.gateBeat), f.id = b := by
  unfold Fires
  rw [beats_eq, List.map_append, List.mem_append]
  simp only [List.mem_map, Option.mem_toList, Option.mem_def]

theorem Played.not_fires (p : Played) (h : p.beats = []) (b : EntityId) : ¬p.Fires b := by
  unfold Fires
  rw [h]
  exact List.not_mem_nil

/-- What is so when a line that is committed has the beats looked at: its own effects are applied,
and its interaction is marked. -/
def Line.watch? (c : Catalog) (l : Line) (s : State) : Option View :=
  (l.landing? c s).bind fun x =>
    (s.advanceTurn.applyAll c x.1.effects).toOption.map fun acted =>
      ⟨c, acted.markRun c x.1.interaction⟩

/-- The views in which the committed turns of a list of lines look at the beats, in order. -/
def watches (c : Catalog) (s : State) : List Line → List View
  | [] => []
  | l :: ls => (l.watch? c s).toList ++ watches c (l.play c s).state ls

/-- The state that a list of lines leads to. -/
def State.through (c : Catalog) (s : State) (ls : List Line) : State :=
  ls.foldl (fun s l => (l.play c s).state) s

@[simp] theorem State.through_nil (c : Catalog) (s : State) : s.through c [] = s := rfl

@[simp] theorem State.through_cons (c : Catalog) (s : State) (l : Line) (ls : List Line) :
    s.through c (l :: ls) = (l.play c s).state.through c ls := by
  unfold through
  rw [List.foldl_cons]

/-! ### The memory of beats -/

namespace State

variable {c : Catalog} {s t : State}

/-- Effects neither fire beats nor set latches. -/
theorem memory_applyAll {es : List Effect} (h : s.applyAll c es = .ok t) :
    t.firedBeats = s.firedBeats ∧ t.latchedBeats = s.latchedBeats := by
  refine keeps_applyAll (P := fun m => m.firedBeats = s.firedBeats ∧
    m.latchedBeats = s.latchedBeats) (fun e m m' hm he => ?_) ⟨rfl, rfl⟩ h
  obtain ⟨-, -, rfl⟩ := apply_eq_ok_iff.1 he
  obtain ⟨_, _, _, _, _, hsame⟩ := exists_change_eq (c := c) m e
  rw [hsame]
  exact hm

theorem memory_markRun (x : Option EntityId) :
    (s.markRun c x).firedBeats = s.firedBeats ∧ (s.markRun c x).latchedBeats = s.latchedBeats := by
  obtain ⟨_, hsame⟩ := exists_markRun_eq c s x
  rw [hsame]
  exact ⟨rfl, rfl⟩

theorem memory_fire {b : Beat} (h : s.fire c b = .ok t) :
    (∀ x, x ∈ t.firedBeats ↔ x ∈ s.firedBeats ∨ x = b.id) ∧ t.latchedBeats = s.latchedBeats := by
  obtain ⟨m, hes, rfl⟩ := fire_eq_ok_iff.1 h
  obtain ⟨hfired, hlatched⟩ := memory_applyAll hes
  rw [markFired_eq]
  refine ⟨fun x => ?_, hlatched⟩
  dsimp only
  rw [hfired]
  split
  · rename_i hmem
    have hmem : b.id ∈ s.firedBeats := by simpa using hmem
    exact ⟨.inl, fun hx => hx.elim id fun heq => heq ▸ hmem⟩
  · simp

theorem memory_fireAll {bs : List Beat} (h : s.fireAll c bs = .ok t) :
    (∀ x, x ∈ t.firedBeats ↔ x ∈ s.firedBeats ∨ x ∈ bs.map (·.id)) ∧
      t.latchedBeats = s.latchedBeats := by
  induction bs generalizing s with
  | nil => cases h; simp
  | cons b bs ih =>
    obtain ⟨m, hb, h⟩ := fireAll_cons_eq_ok_iff.1 h
    obtain ⟨hfired, hlatched⟩ := memory_fire hb
    refine ⟨fun x => ?_, (ih h).2.trans hlatched⟩
    rw [(ih h).1, hfired, List.map_cons, List.mem_cons, or_assoc]

theorem mem_latchedBeats_setLatches {ls : List (EntityId × Bool)} (h : (ls.map (·.1)).Nodup)
    {x : EntityId} :
    x ∈ (s.setLatches ls).latchedBeats ↔
      (x, true) ∈ ls ∨ (x ∈ s.latchedBeats ∧ x ∉ ls.map (·.1)) := by
  unfold setLatches
  induction ls generalizing s with
  | nil => simp
  | cons l ls ih =>
    obtain ⟨y, on⟩ := l
    obtain ⟨hy, hls⟩ := List.nodup_cons.1 h
    have hset : x ∈ (s.setLatch y on).latchedBeats ↔
        if on then x = y ∨ x ∈ s.latchedBeats else x ≠ y ∧ x ∈ s.latchedBeats := by
      unfold setLatch
      cases on <;> simp
    rw [List.foldl_cons, ih hls, hset]
    by_cases hx : x = y
    · subst hx
      have hlater : (x, true) ∉ ls := fun hmem => hy (List.mem_map_of_mem (f := (·.1)) hmem)
      cases on <;> simp [hy, hlater]
    · cases on <;> simp [hx]

end State

theorem View.nodup_latches (v : View) : (v.latches.map (·.1)).Nodup := by
  unfold View.latches View.watchedBeats
  rw [List.map_map]
  exact v.catalog.beats.nodup.sublist ((List.filter_sublist.trans List.filter_sublist).map _)

namespace State

variable {c : Catalog} {s t : State}

theorem memory_fireDue {fired : List FiredBeat} (h : s.fireDue c = .ok (t, fired)) :
    (∀ x, x ∈ t.firedBeats ↔ x ∈ s.firedBeats ∨ x ∈ fired.map (·.id)) ∧
      ∀ x, x ∈ t.latchedBeats ↔ (x, true) ∈ (View.mk c s).latches ∨
        (x ∈ s.latchedBeats ∧ x ∉ (View.mk c s).latches.map (·.1)) := by
  obtain ⟨after, hafter, rfl, rfl⟩ := fireAll_of_fireDue h
  obtain ⟨hfired, hlatched⟩ := memory_fireAll hafter
  refine ⟨fun x => ?_, fun x => ?_⟩
  · obtain ⟨_, hsame⟩ := exists_setLatches_eq after (View.mk c s).latches
    rw [hsame, List.map_map]
    exact hfired x
  · rw [mem_latchedBeats_setLatches (View.nodup_latches _), hlatched]

/-- What fires at a gate is the gate beat of the act that is left, which had not fired. -/
theorem memory_passGate {step : Option Transition} (h : s.passGate c = .ok (t, step)) :
    (∀ x, x ∈ t.firedBeats ↔ x ∈ s.firedBeats ∨ ∃ f ∈ step.bind (·.gateBeat), f.id = x) ∧
      t.latchedBeats = s.latchedBeats ∧
      ∀ f, step.bind (·.gateBeat) = some f →
        ∃ a ∈ c.acts.toList, a.gateBeat = some f.id ∧ f.id ∉ s.firedBeats ∧
          step.map (·.origin) = some a.id := by
  rcases passGate_cases h with ⟨rfl, rfl⟩ | ⟨current, next, beat, hopen, hpass, hbeat, hends⟩
  · refine ⟨fun x => ?_, rfl, fun f hf => nomatch hf⟩
    simp
  · have hcurrent := Table.mem_of_get? (of_openGate? hopen).1
    have horigin : step.map (·.origin) = some current.id := by
      have hfirst := congrArg (Option.map Prod.fst) hends
      rwa [Option.map_map] at hfirst
    rw [hbeat]
    cases hpass with
    | plain =>
      refine ⟨fun x => ?_, rfl, fun f hf => nomatch hf⟩
      exact ⟨.inl, fun hx => hx.elim id fun ⟨_, hf, _⟩ => nomatch hf⟩
    | beaten hpending hfire =>
      obtain ⟨hb, -, hunfired⟩ := of_pendingGateBeat? hpending
      obtain ⟨hfired, hlatched⟩ := memory_fire hfire
      refine ⟨fun x => ?_, hlatched, fun f hf => ?_⟩
      · refine (hfired x).trans ?_
        simp [Beat.fired, eq_comm]
      · obtain rfl := Option.some.inj hf
        exact ⟨current, hcurrent, hb, hunfired, horigin⟩

end State

/-! ### What a look does -/

/-- What becomes of the beats in a turn `p` from `s` to `t` that looks at them in the view `v`. -/
structure Looked (v : View) (s t : State) (p : Played) : Prop where
  due : p.dueBeats = v.dueBeats.map Beat.fired
  seen_fired : v.state.firedBeats = s.firedBeats
  seen_latched : v.state.latchedBeats = s.latchedBeats
  fired : ∀ x, x ∈ t.firedBeats ↔ x ∈ s.firedBeats ∨ p.Fires x
  latched : ∀ x, x ∈ t.latchedBeats ↔
    (x, true) ∈ v.latches ∨ (x ∈ s.latchedBeats ∧ x ∉ v.latches.map (·.1))
  gate : ∀ f, p.transition?.bind (·.gateBeat) = some f →
    ∃ a ∈ v.catalog.acts.toList, a.gateBeat = some f.id ∧ f.id ∉ s.firedBeats ∧
      p.transition?.map (·.origin) = some a.id

section
variable {c : Catalog} {s t : State} {l : Line}

theorem Landing.looked {p : Plan} {done : Commit} {acted beaten passed : State} {q : Played}
    (h : Landing c s p done acted beaten passed) (hdue : q.dueBeats = done.beats)
    (hstep : q.transition? = done.transition) :
    Looked ⟨c, acted.markRun c p.interaction⟩ s done.state q := by
  obtain ⟨hacted, hacted'⟩ := State.memory_applyAll h.act
  obtain ⟨hmarked, hmarked'⟩ := State.memory_markRun (c := c) (s := acted) p.interaction
  obtain ⟨hbeaten, hbeaten'⟩ := State.memory_fireDue h.beat
  obtain ⟨_, hspokes⟩ := State.exists_recordSpokes_eq c beaten
  obtain ⟨hpassed, hpassed', hgate⟩ := State.memory_passGate h.pass
  obtain ⟨_, hwon⟩ := State.exists_recordVictory_eq h.win
  rw [hspokes] at hpassed hpassed' hgate
  have hfired : ∀ x, x ∈ beaten.firedBeats ↔ x ∈ s.firedBeats ∨ x ∈ done.beats.map (·.id) := by
    intro x
    rw [hbeaten, hmarked, hacted]
  rw [hwon]
  refine ⟨?_, hmarked.trans hacted, hmarked'.trans hacted', fun x => ?_, fun x => ?_,
    fun f hf => ?_⟩
  · obtain ⟨-, -, -, hbeats⟩ := fireAll_of_fireDue h.beat
    rw [hdue, hbeats]
  · rw [Played.fires_iff, hdue, hstep, ← or_assoc, ← hfired]
    exact hpassed x
  · rw [hmarked', hacted'] at hbeaten'
    exact (iff_of_eq (congrArg (x ∈ ·) hpassed')).trans (hbeaten' x)
  · rw [hstep] at hf ⊢
    obtain ⟨a, ha, hbeat, hunfired, horigin⟩ := hgate f hf
    exact ⟨a, ha, hbeat, fun hmem => hunfired ((hfired _).2 (.inl hmem)), horigin⟩

/-- A line whose turn looks at the beats is committed, and what it does to them is what the look
does. -/
theorem Line.looked {v : View} (h : l.watch? c s = some v) :
    v.catalog = c ∧ Looked v s (l.play c s).state (l.play c s) := by
  unfold watch? at h
  obtain ⟨⟨p, done⟩, hl, h⟩ := Option.bind_eq_some_iff.1 h
  obtain ⟨acted, beaten, passed, hstages⟩ := (Line.lands hl).stages
  rw [hstages.act] at h
  obtain rfl := Option.some.inj h
  have hlooked : Looked ⟨c, acted.markRun c p.interaction⟩ s.advanceTurn done.state (l.play c s) :=
    hstages.looked (Line.dueBeats_of_some hl) (Line.transition?_of_some hl)
  rw [(Line.play_of_some hl).1]
  exact ⟨rfl, hlooked.due, hlooked.seen_fired, hlooked.seen_latched, hlooked.fired,
    hlooked.latched, hlooked.gate⟩

/-- A turn looks at the beats exactly if it lands. -/
theorem Line.watch?_eq_none_iff : l.watch? c s = none ↔ l.landing? c s = none := by
  unfold watch?
  cases hl : l.landing? c s with
  | none => simp
  | some x =>
    obtain ⟨acted, beaten, passed, hstages⟩ := (Line.lands hl).stages
    simp [hstages.act, Except.toOption]

theorem Line.unlooked (h : l.watch? c s = none) :
    (l.play c s).beats = [] ∧ (l.play c s).state.firedBeats = s.firedBeats ∧
      (l.play c s).state.latchedBeats = s.latchedBeats := by
  obtain ⟨hstate, hbeats, -⟩ := Line.play_of_none (watch?_eq_none_iff.1 h)
  rw [hstate]
  exact ⟨hbeats, rfl, rfl⟩

theorem Line.isSome_watch?_iff :
    (l.watch? c s).isSome = true ↔
      ∃ o, (l.play c s).outcome = .ok o ∧ o.status = .committed := by
  rw [← Option.ne_none_iff_isSome, Ne, watch?_eq_none_iff]
  cases hl : l.landing? c s with
  | some x =>
    obtain ⟨-, o, ho, hstatus, -⟩ := Line.play_of_some hl
    exact iff_of_true (by simp) ⟨o, ho, hstatus⟩
  | none =>
    refine iff_of_false (by simp) ?_
    rintro ⟨o, ho, hstatus⟩
    obtain ⟨-, ho', hrefused⟩ | ⟨-, ho', -, -⟩ | ⟨-, -, -, hp, hlands⟩ := l.ends c s
    · cases ho.symm.trans ho'
      exact hrefused hstatus
    · cases ho.symm.trans ho'
    · have hcommit := hlands.commit
      unfold landing? at hl
      rw [hp] at hl
      dsimp only at hl
      rw [hcommit] at hl
      cases hl

/-- The beats that have fired after a turn are those that had and those that it fires. -/
theorem Line.mem_firedBeats_play {x : EntityId} :
    x ∈ (l.play c s).state.firedBeats ↔ x ∈ s.firedBeats ∨ (l.play c s).Fires x := by
  cases hv : l.watch? c s with
  | some v => exact (Line.looked hv).2.fired x
  | none =>
    obtain ⟨hbeats, hfired, -⟩ := Line.unlooked hv
    rw [hfired]
    exact (or_iff_left (Played.not_fires _ hbeats x)).symm

end

namespace Looked

variable {v : View} {s t : State} {p : Played} {b : Beat}

theorem mem_dueBeats_iff (h : Looked v s t p) (hb : b ∈ v.catalog.beats.toList) :
    b.id ∈ p.dueBeats.map (·.id) ↔ v.catalog.isGateBeat b.id = false ∧ v.isDue b = true := by
  rw [h.due, List.map_map]
  constructor
  · intro hmem
    obtain ⟨d, hd, hid⟩ := List.mem_map.1 hmem
    obtain ⟨hwatched, hdue⟩ := List.mem_filter.1 hd
    obtain ⟨hd, hgate⟩ := List.mem_filter.1 hwatched
    obtain rfl : d = b := Table.eq_of_id_eq v.catalog.beats.nodup hd hb hid
    exact ⟨by simpa using hgate, hdue⟩
  · rintro ⟨hgate, hdue⟩
    refine List.mem_map.2 ⟨b, List.mem_filter.2 ⟨List.mem_filter.2 ⟨hb, ?_⟩, hdue⟩, rfl⟩
    simpa using hgate

theorem isGateBeat (h : Looked v s t p) {f : FiredBeat}
    (hf : p.transition?.bind (·.gateBeat) = some f) : v.catalog.isGateBeat f.id = true := by
  obtain ⟨a, ha, hbeat, -, -⟩ := h.gate f hf
  exact List.any_eq_true.2 ⟨a, ha, by simpa using hbeat⟩

theorem fires_iff (h : Looked v s t p) (hb : b ∈ v.catalog.beats.toList)
    (hgate : v.catalog.isGateBeat b.id = false) : p.Fires b.id ↔ v.isDue b = true := by
  rw [Played.fires_iff, h.mem_dueBeats_iff hb]
  constructor
  · rintro (⟨-, hdue⟩ | ⟨f, hf, hid⟩)
    · exact hdue
    · have hgate' := h.isGateBeat hf
      rw [hid, hgate] at hgate'
      cases hgate'
  · exact fun hdue => .inl ⟨hgate, hdue⟩

theorem gate_of_fires (h : Looked v s t p) (hb : b ∈ v.catalog.beats.toList)
    (hgate : v.catalog.isGateBeat b.id = true) (hfires : p.Fires b.id) :
    b.id ∉ s.firedBeats ∧ ∃ a ∈ v.catalog.acts.toList, a.gateBeat = some b.id ∧
      p.transition?.map (·.origin) = some a.id := by
  rw [Played.fires_iff, h.mem_dueBeats_iff hb] at hfires
  rcases hfires with ⟨hungated, -⟩ | ⟨f, hf, hid⟩
  · rw [hgate] at hungated
    cases hungated
  · obtain ⟨a, ha, hbeat, hunfired, horigin⟩ := h.gate f hf
    rw [← hid]
    exact ⟨hunfired, a, ha, hbeat, horigin⟩

theorem nodup (h : Looked v s t p) : (p.beats.map (·.id)).Nodup := by
  rw [Played.beats_eq, List.map_append]
  refine List.nodup_append.2 ⟨?_, ?_, fun x hx y hy => ?_⟩
  · rw [h.due, List.map_map]
    exact v.catalog.beats.nodup.sublist
      ((List.filter_sublist.trans List.filter_sublist).map _)
  · cases p.transition?.bind (·.gateBeat) <;> simp
  · rintro rfl
    rw [h.due, List.map_map] at hx
    obtain ⟨b, hb, rfl⟩ := List.mem_map.1 hx
    obtain ⟨f, hf, hid⟩ := List.mem_map.1 hy
    have hgate := h.isGateBeat (Option.mem_toList.1 hf)
    have hungated := (of_mem_dueBeats hb).2.1
    rw [hid] at hgate
    exact absurd (hungated.symm.trans hgate) Bool.false_ne_true

end Looked

/-! ### Runs -/

/-- The store remembers what the beats' triggers were when they were last looked at, and whether
those that fire once ever held. -/
structure Remembers (c : Catalog) (s : State) (past : List View) : Prop where
  once : ∀ b ∈ c.beats.toList, c.isGateBeat b.id = false → b.repeatable = false →
    (b.id ∈ s.firedBeats ↔ ∃ u ∈ past, u.holds b.trigger = true)
  latest : ∀ b ∈ c.beats.toList, c.isGateBeat b.id = false → b.repeatable = true →
    (b.id ∈ s.latchedBeats ↔ ∃ u ∈ past.getLast?, u.holds b.trigger = true)

namespace Remembers

variable {c : Catalog} {s : State} {past : List View}

theorem initial (c : Catalog) : Remembers c (.initial c) [] where
  once _ _ _ _ := by simp [State.initial]
  latest _ _ _ _ := by simp [State.initial]

theorem isDue_iff (h : Remembers c s past) {v : View}
    (hfired : v.state.firedBeats = s.firedBeats) (hlatched : v.state.latchedBeats = s.latchedBeats)
    {b : Beat} (hb : b ∈ c.beats.toList) (hgate : c.isGateBeat b.id = false) :
    v.isDue b = true ↔ v.holds b.trigger = true ∧
      if b.repeatable then ∀ u ∈ past.getLast?, u.holds b.trigger = false
      else ∀ u ∈ past, u.holds b.trigger = false := by
  unfold View.isDue
  rw [Bool.and_eq_true, hfired, hlatched]
  refine and_congr_right fun _ => ?_
  cases hrep : b.repeatable with
  | false =>
    have honce := h.once b hb hgate hrep
    simp [honce]
  | true =>
    have hlatest := h.latest b hb hgate hrep
    rw [SortedSet.mem_iff_contains] at hlatest
    rw [if_pos rfl, if_pos rfl, Bool.not_eq_true', ← Bool.not_eq_true, hlatest]
    simp

/-- A turn adds its look to what is remembered. -/
theorem play (h : Remembers c s past) (l : Line) :
    Remembers c (l.play c s).state (past ++ (l.watch? c s).toList) := by
  cases hv : l.watch? c s with
  | none =>
    -- A turn that is not committed leaves neither a look nor a memory of one.
    obtain ⟨-, hfired, hlatched⟩ := Line.unlooked hv
    rw [Option.toList_none, List.append_nil]
    exact ⟨by rw [hfired]; exact h.once, by rw [hlatched]; exact h.latest⟩
  | some v =>
    obtain ⟨rfl, hlook⟩ := Line.looked hv
    rw [Option.toList_some]
    constructor
    · intro b hb hgate honce
      rw [hlook.fired, hlook.fires_iff hb hgate,
        h.isDue_iff hlook.seen_fired hlook.seen_latched hb hgate, honce,
        h.once b hb hgate honce]
      simp only [Bool.false_eq_true, if_false, List.mem_append, List.mem_singleton,
        or_and_right, exists_or, exists_eq_left]
      by_cases hbefore : ∃ u ∈ past, u.holds b.trigger = true
      · simp [hbefore]
      · have hnever : ∀ u ∈ past, u.holds b.trigger = false := by simpa using hbefore
        simp only [hbefore, false_or]
        exact and_iff_left hnever
    · intro b hb hgate hrep
      -- The latch is set from what the look saw, whatever it was before.
      have hmem : b ∈ v.watchedBeats.filter (·.repeatable) :=
        List.mem_filter.2 ⟨List.mem_filter.2 ⟨hb, by simpa using hgate⟩, hrep⟩
      have hset : (b.id, v.holds b.trigger) ∈ v.latches := List.mem_map_of_mem hmem
      have hlisted : b.id ∈ v.latches.map (·.1) := List.mem_map_of_mem hset
      rw [hlook.latched, List.getLast?_concat]
      simp only [hlisted, not_true, and_false, or_false, Option.mem_some_iff, exists_eq_left']
      constructor
      · intro hon
        obtain ⟨d, hd, heq⟩ := List.mem_map.1 hon
        obtain ⟨hid, hholds⟩ := Prod.mk.inj heq
        have hd := (List.mem_filter.1 (List.mem_filter.1 hd).1).1
        obtain rfl : d = b := Table.eq_of_id_eq v.catalog.beats.nodup hd hb hid
        exact hholds
      · intro hholds
        rwa [hholds] at hset

theorem through (h : Remembers c s past) (ls : List Line) :
    Remembers c (s.through c ls) (past ++ watches c s ls) := by
  induction ls generalizing s past with
  | nil =>
    rw [State.through_nil, watches, List.append_nil]
    exact h
  | cons l ls ih =>
    rw [State.through_cons, watches]
    have hnext := ih (h.play l)
    rwa [List.append_assoc] at hnext

end Remembers

theorem State.mem_firedBeats_through {c : Catalog} {s : State} {ls : List Line} {x : EntityId} :
    x ∈ (s.through c ls).firedBeats ↔ x ∈ s.firedBeats ∨ ∃ q ∈ plays c s ls, q.Fires x := by
  induction ls generalizing s with
  | nil => simp [plays]
  | cons l ls ih =>
    rw [through_cons, ih, Line.mem_firedBeats_play, plays]
    simp only [List.mem_cons, exists_eq_or_imp, or_assoc]

/-- When the beats fire in the turn `p` that comes after the turns of `before`. Only a committed
turn looks at them, and none fires twice in it. A beat other than a gate beat fires when its trigger
holds at the look and, unless it is repeatable, held at no earlier one; if it is repeatable, not at
the one before. A gate beat is never due: it fires as its act is left, if it has not fired. -/
theorem fires_exactly {c : Catalog} (hc : c.Accepted) (before : List Line) (l : Line) :
    let s := (State.initial c).through c before
    let past := watches c (.initial c) before
    let p := l.play c s
    ((l.watch? c s).isSome = true ↔ ∃ o, p.outcome = .ok o ∧ o.status = .committed) ∧
    (p.beats.map (·.id)).Nodup ∧
    ∀ b ∈ c.beats.toList,
      (c.isGateBeat b.id = false → b.repeatable = false →
        (p.Fires b.id ↔ ∃ v ∈ l.watch? c s, v.holds b.trigger = true ∧
          ∀ u ∈ past, u.holds b.trigger = false)) ∧
      (c.isGateBeat b.id = false → b.repeatable = true →
        (p.Fires b.id ↔ ∃ v ∈ l.watch? c s, v.holds b.trigger = true ∧
          ∀ u ∈ past.getLast?, u.holds b.trigger = false)) ∧
      (c.isGateBeat b.id = true →
        b.id ∉ p.dueBeats.map (·.id) ∧
        (p.Fires b.id →
          (∃ a ∈ c.acts.toList, a.gateBeat = some b.id ∧
            (∀ a' ∈ c.acts.toList, a'.gateBeat = some b.id → a' = a) ∧
            p.transition?.map (·.origin) = some a.id) ∧
          ∀ q ∈ plays c (.initial c) before, ¬q.Fires b.id)) := by
  intro s past p
  have hmemory : Remembers c s past := (Remembers.initial c).through before
  have hfired : ∀ x, x ∈ s.firedBeats ↔ ∃ q ∈ plays c (.initial c) before, q.Fires x := fun x =>
    State.mem_firedBeats_through.trans (or_iff_right (List.not_mem_nil))
  refine ⟨Line.isSome_watch?_iff, ?_⟩
  cases hv : l.watch? c s with
  | none =>
    obtain ⟨hbeats, -, -⟩ := Line.unlooked hv
    -- A turn without a look fires nothing, so nothing was due.
    have hdue : p.dueBeats = [] := (List.append_eq_nil_iff.1 (p.beats_eq ▸ hbeats)).1
    have hquiet := p.not_fires hbeats
    refine ⟨by rw [hbeats]; exact List.nodup_nil,
      fun b _ => ⟨fun _ _ => ?_, fun _ _ => ?_, fun _ => ?_⟩⟩
    · exact iff_of_false (hquiet _) (by simp)
    · exact iff_of_false (hquiet _) (by simp)
    · exact ⟨by rw [hdue]; exact List.not_mem_nil, fun hfires => absurd hfires (hquiet _)⟩
  | some v =>
    obtain ⟨hcat, hlook⟩ := Line.looked hv
    refine ⟨hlook.nodup, fun b hb => ⟨fun hgate honce => ?_, fun hgate hrep => ?_, fun hgate => ?_⟩⟩
    · rw [hlook.fires_iff (hcat ▸ hb) (hcat ▸ hgate),
        hmemory.isDue_iff hlook.seen_fired hlook.seen_latched hb hgate, honce]
      simp
    · rw [hlook.fires_iff (hcat ▸ hb) (hcat ▸ hgate),
        hmemory.isDue_iff hlook.seen_fired hlook.seen_latched hb hgate, hrep]
      simp
    · have hb' : b ∈ v.catalog.beats.toList := hcat ▸ hb
      have hgate' : v.catalog.isGateBeat b.id = true := hcat ▸ hgate
      refine ⟨fun hmem => ?_, fun hfires => ?_⟩
      · have hungated := ((hlook.mem_dueBeats_iff hb').1 hmem).1
        exact absurd (hungated.symm.trans hgate') Bool.false_ne_true
      · obtain ⟨hunfired, a, ha, hbeat, horigin⟩ := hlook.gate_of_fires hb' hgate' hfires
        rw [hcat] at ha
        refine ⟨⟨a, ha, hbeat, fun a' ha' hbeat' => ?_, horigin⟩, fun q hq hqfires => ?_⟩
        · exact hc.gateBeat_unshared ha' ha hbeat' hbeat
        · exact hunfired ((hfired _).2 ⟨q, hq, hqfires⟩)

/-- A yard and the lane behind it, where a dog barks at everyone who comes by and is told of once.
The day ends with a bell. -/
def yardDoc : WorldDocument where
  world := some { title := "Yard" }
  start := some { location := "yard" }
  locations := [{ id := "yard", name := "Yard" }, { id := "lane", name := "Lane" }]
  exits := [
    { id := "out", direction := some "north", origin := "yard", destination := "lane" },
    { id := "back", direction := some "south", origin := "lane", destination := "yard" }]
  interactions := [
    { id := "ring", triggers := ["ring"], effects := [.setFlag "rung" (.bool true)] }]
  beats := [
    { id := "dog", trigger := .atom (.at "lane") },
    { id := "bark", trigger := .atom (.at "lane"), repeatable := true },
    { id := "bell", repeatable := true }]
  acts := [
    { id := "day", locations := ["yard", "lane"], gate := some (.atom (.flag "rung"))
      gateBeat := some "bell" },
    { id := "night", locations := ["yard"] }]

def yard : Catalog := .draft yardDoc

theorem yard_accepted : yard.Accepted :=
  ⟨yardDoc, Catalog.ofDocument_eq_ok_iff.2 ⟨by decide, rfl⟩⟩

/-- In the lane again, the player is barked at again and not told of the dog again. -/
theorem bark_in_lane :
    let again := Line.play yard { input := "north" }
      ((State.initial yard).through yard [{ input := "north" }, { input := "south" }])
    yard.Accepted ∧ again.Fires "bark" ∧ ¬again.Fires "dog" := by
  intro again
  obtain ⟨-, -, h⟩ := fires_exactly yard_accepted [{ input := "north" }, { input := "south" }]
    { input := "north" }
  have hdog := (h _ (.head _)).1 (by decide) rfl
  have hbark := (h _ (.tail _ (.head _))).2.1 (by decide) rfl
  exact ⟨yard_accepted, hbark.2 (by decide +kernel), fun hfires =>
    absurd (hdog.1 hfires) (by decide +kernel)⟩

end Storyworld
