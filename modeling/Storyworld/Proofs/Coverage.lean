import Storyworld.Proofs.Foresight
import Storyworld.Proofs.Refinement

/-!
# What an outlook covers

A world is within an outlook if whatever is so in it was so to begin with or is foreseen
(`World.Within`). Effects that are foreseen keep a world within the outlook (`Within.after`), and so
does laying down what is carried. `Attainable` is the reading of counters that the outlook's
comparisons rest on.
-/

namespace Storyworld
namespace Outlook

variable {v : View} {o : Outlook}

/-! ### Counters -/

/-- The count is one from which the counter may start, or lies from there in a direction in which it
may move. -/
def Attainable (v : View) (o : Outlook) (p : EntityId) (n : String) (x : Count) : Prop :=
  ∃ start, (start = v.counter p n ∨ o.knows (.count p n start) = true) ∧
    (start < x → o.knows (.raise p n) = true) ∧ (x < start → o.knows (.lower p n) = true)

variable {p : EntityId} {n : String} {start x d value : Count} {cmp : Comparison}

theorem Attainable.of_start (h : x = v.counter p n ∨ o.knows (.count p n x) = true) :
    Attainable v o p n x :=
  ⟨x, h, fun hlt => absurd hlt Int64.lt_irrefl, fun hlt => absurd hlt Int64.lt_irrefl⟩

theorem Attainable.of_raise
    (hstart : start = v.counter p n ∨ o.knows (.count p n start) = true)
    (hraise : o.knows (.raise p n) = true) (hle : start ≤ x) : Attainable v o p n x :=
  ⟨start, hstart, fun _ => hraise, fun hlt => absurd hle (Int64.not_le.2 hlt)⟩

theorem Attainable.of_lower
    (hstart : start = v.counter p n ∨ o.knows (.count p n start) = true)
    (hlower : o.knows (.lower p n) = true) (hle : x ≤ start) : Attainable v o p n x :=
  ⟨start, hstart, fun hlt => absurd hle (Int64.not_le.2 hlt), fun _ => hlower⟩

theorem foresees_adjustCounter_iff :
    o.Foresees v (.adjustCounter p n d) ↔
      (0 < d → o.knows (.raise p n) = true) ∧ (d < 0 → o.knows (.lower p n) = true) := by
  have hnot : 0 < d → ¬d < 0 := Int64.lt_asymm
  unfold Foresees View.facts
  dsimp only
  split
  · rename_i hpos
    simp [hpos, hnot hpos]
  · rename_i hpos
    split
    · rename_i hneg
      simp [hpos, hneg]
    · rename_i hneg
      simp [hpos, hneg]

theorem Attainable.addSat (h : Attainable v o p n x)
    (hd : o.Foresees v (.adjustCounter p n d)) : Attainable v o p n (x.addSat d) := by
  obtain ⟨start, hstart, hup, hdown⟩ := h
  obtain ⟨hraise, hlower⟩ := foresees_adjustCounter_iff.1 hd
  have hsum := Count.toInt_addSat x d
  have hx := Count.fits_toInt x
  unfold Count.Fits at hx
  rw [Count.toInt_least, Count.toInt_greatest] at hsum
  rw [Int64.lt_iff_toInt_lt, Int64.toInt_zero] at hraise hlower
  rw [Int64.lt_iff_toInt_lt] at hup hdown
  refine ⟨start, hstart, fun hlt => ?_, fun hlt => ?_⟩
  · rw [Int64.lt_iff_toInt_lt, hsum] at hlt
    by_cases hpos : 0 < d.toInt
    · exact hraise hpos
    · exact hup (by omega)
  · rw [Int64.lt_iff_toInt_lt, hsum] at hlt
    by_cases hneg : d.toInt < 0
    · exact hlower hneg
    · exact hdown (by omega)

/-- The comparison holds at the end of the range towards which a count has moved to meet it. -/
theorem holds_greatest (h : cmp.holds x value = true)
    (hstart : cmp.holds start value = false) (hlt : start < x) :
    (if cmp = .eq then decide (start < value) else cmp.holds Count.greatest value) = true := by
  have hx := Count.fits_toInt x
  unfold Count.Fits at hx
  cases cmp <;>
    simp only [Comparison.holds, beq_iff_eq, bne_iff_ne, ne_eq, decide_eq_true_eq,
      decide_eq_false_iff_not, Int64.lt_iff_toInt_lt, Int64.le_iff_toInt_le, ← Int64.toInt_inj,
      beq_eq_false_iff_ne, bne_eq_false_iff_eq, reduceCtorEq, if_true, if_false,
      Count.toInt_greatest] at h hstart hlt ⊢ <;>
    omega

theorem holds_least (h : cmp.holds x value = true)
    (hstart : cmp.holds start value = false) (hlt : x < start) :
    (if cmp = .eq then decide (value < start) else cmp.holds Count.least value) = true := by
  have hx := Count.fits_toInt x
  unfold Count.Fits at hx
  cases cmp <;>
    simp only [Comparison.holds, beq_iff_eq, bne_iff_ne, ne_eq, decide_eq_true_eq,
      decide_eq_false_iff_not, Int64.lt_iff_toInt_lt, Int64.le_iff_toInt_le, ← Int64.toInt_inj,
      beq_eq_false_iff_ne, bne_eq_false_iff_eq, reduceCtorEq, if_true, if_false,
      Count.toInt_least] at h hstart hlt ⊢ <;>
    omega

/-- What it takes for a counter to come to compare so. -/
theorem counterMay_iff :
    o.counterMay v p n cmp value = true ↔
      ∃ start, (start = v.counter p n ∨ o.knows (.count p n start) = true) ∧
        (cmp.holds start value = true ∨
          o.knows (.raise p n) = true ∧ (if cmp = .eq then decide (start < value)
            else cmp.holds Count.greatest value) = true ∨
          o.knows (.lower p n) = true ∧ (if cmp = .eq then decide (value < start)
            else cmp.holds Count.least value) = true) := by
  have hstarts : ∀ start, start ∈ v.counter p n ::
      ((o.counterValues.filter fun e => e.1 == p && e.2.1 == n).map (·.2.2)) ↔
        start = v.counter p n ∨ o.knows (.count p n start) = true := by
    intro start
    simp [knows]
  unfold counterMay
  dsimp only
  rw [List.any_eq_true]
  refine exists_congr fun start => and_congr (hstarts start) ?_
  simp only [Bool.or_eq_true, Bool.and_eq_true, or_assoc]
  rfl

/-- What the counter may come to meet is what some attainable count meets. -/
theorem counterMay_iff_attainable :
    o.counterMay v p n cmp value = true ↔
      ∃ x, Attainable v o p n x ∧ cmp.holds x value = true := by
  rw [counterMay_iff]
  constructor
  · rintro ⟨start, hstart, hholds | ⟨hraise, hreach⟩ | ⟨hlower, hreach⟩⟩
    · exact ⟨start, .of_start hstart, hholds⟩
    · split at hreach
      · rename_i heq
        have hlt := of_decide_eq_true hreach
        exact ⟨value, .of_raise hstart hraise (Int64.le_of_lt hlt), by simp [heq, Comparison.holds]⟩
      · exact ⟨Count.greatest, .of_raise hstart hraise (Int64.le_maxValue _), hreach⟩
    · split at hreach
      · rename_i heq
        have hlt := of_decide_eq_true hreach
        exact ⟨value, .of_lower hstart hlower (Int64.le_of_lt hlt), by simp [heq, Comparison.holds]⟩
      · exact ⟨Count.least, .of_lower hstart hlower (Int64.minValue_le _), hreach⟩
  · rintro ⟨x, ⟨start, hstart, hup, hdown⟩, hholds⟩
    refine ⟨start, hstart, ?_⟩
    cases hs : cmp.holds start value with
    | true => exact .inl rfl
    | false =>
      have hne : start ≠ x := fun heq => by
        rw [heq, hholds] at hs
        cases hs
      rw [ne_eq, ← Int64.toInt_inj] at hne
      rcases Int.lt_or_gt_of_ne hne with hlt | hlt
      · have hlt := Int64.lt_iff_toInt_lt.2 hlt
        exact .inr (.inl ⟨hup hlt, holds_greatest hholds hs hlt⟩)
      · have hlt := Int64.lt_iff_toInt_lt.2 hlt
        exact .inr (.inr ⟨hdown hlt, holds_least hholds hs hlt⟩)

end Outlook

/-! ### Worlds -/

/-- Whatever is so in the world was so at first or is foreseen, and what was destroyed stays so. -/
structure World.Within (v : View) (o : Outlook) (w : World) : Prop where
  here : o.knows (.visit w.location) = true
  carried : ∀ i ∈ w.inventory, o.knows (.gain i) = true
  flags : ∀ n x, w.flags n = some x → v.state.flags.get? n = some x ∨ o.Foresees v (.setFlag n x)
  lying : ∀ i l, w.placement i = .location l → v.placement i = .location l ∨
    o.knows (.place i l) = true ∨ (o.knows (.gain i) = true ∧ o.knows (.visit l) = true)
  destroyed : ∀ i, v.placement i = .destroyed → w.placement i = .destroyed
  standing : ∀ p l, w.standing p = some l →
    v.standing? p = some l ∨ o.knows (.move p l) = true
  counter : ∀ p n, o.Attainable v p n (w.counter p n)
  unlocked : ∀ x, w.locked x = some false →
    v.locked? x = some false ∨ o.knows (.unlock x) = true
  revealed : ∀ x, w.hidden x = some false →
    v.hidden? x = some false ∨ o.knows (.reveal x) = true
  spokes : ∀ d, w.spokes d = true → o.mayAtom v (.spoke d) = true
  act : w.act = v.state.act ∨ ∃ i, v.catalog.acts.position? w.act = some i ∧
    (Outlook.initial v).furthestAct < i ∧ i ≤ o.furthestAct
  reached : ∃ later, w.reachedActs = v.state.reachedActs ++ later ∧
    ∀ a ∈ later, ∃ i, v.catalog.acts.position? a = some i ∧
      (Outlook.initial v).furthestAct < i ∧ i ≤ o.furthestAct

namespace World.Within

variable {v : View} {o : Outlook} {w : World}

theorem of_update_eq {α β : Type} [DecidableEq α] {f : α → β} {a x : α} {b y : β}
    (h : Function.update f a b x = y) : (x = a ∧ b = y) ∨ (x ≠ a ∧ f x = y) := by
  by_cases hx : x = a
  · subst hx
    rw [Function.update_self] at h
    exact .inl ⟨rfl, h⟩
  · rw [Function.update_of_ne hx] at h
    exact .inr ⟨hx, h⟩

theorem put (h : w.Within v o) {i : EntityId} {p : Placement}
    (hi : w.placement i ≠ .destroyed ∨ p = .destroyed)
    (hp : ∀ l, p = .location l → v.placement i = .location l ∨ o.knows (.place i l) = true ∨
      (o.knows (.gain i) = true ∧ o.knows (.visit l) = true)) : (w.put i p).Within v o :=
  { h with
    carried := fun j hj => h.carried j (List.mem_filter.1 hj).1
    lying := fun j l hl => by
      rcases of_update_eq hl with ⟨rfl, hp'⟩ | ⟨-, hl'⟩
      · exact hp l hp'
      · exact h.lying j l hl'
    destroyed := fun j hj => by
      have hw := h.destroyed j hj
      by_cases hji : j = i
      · subst hji
        exact (Function.update_self ..).trans (hi.resolve_left (not_not.2 hw))
      · exact (Function.update_of_ne hji ..).trans hw }

theorem count (h : w.Within v o) {p : EntityId} {n : String} {x : Count}
    (hx : o.Attainable v p n x) : (w.count p n x).Within v o :=
  { h with
    counter := fun q m => by
      by_cases hq : q = p
      · subst hq
        by_cases hm : m = n
        · subst hm
          simpa [World.count]
        · simpa [World.count, hm] using h.counter q m
      · simpa [World.count, hq] using h.counter q m }

theorem le_position (h : w.Within v o) {i : Nat} (hi : v.catalog.acts.position? w.act = some i) :
    (Outlook.initial v).furthestAct ≤ i := by
  rcases h.act with hact | ⟨j, hj, hlt, -⟩
  · rw [hact] at hi
    show (v.catalog.acts.position? v.state.act).getD 0 ≤ i
    rw [hi]
    exact Nat.le_refl i
  · rw [hi] at hj
    cases hj
    omega

theorem advance (h : w.Within v o) {a : EntityId} (ha : o.Foresees v (.advanceAct a)) :
    (w.advance v.catalog a).Within v o := by
  unfold World.advance
  split
  · rename_i i j hi hj
    split
    · rename_i hij
      have hle := h.le_position hi
      have hfurthest : j ≤ o.furthestAct :=
        of_decide_eq_true (ha (.act j) (by simp [View.facts, hj]))
      obtain ⟨later, hlater, hpast⟩ := h.reached
      have hpassed : ∀ b ∈ ((v.catalog.acts.toList.map (·.id)).take (j + 1)).drop (i + 1),
          ∃ k, v.catalog.acts.position? b = some k ∧
            (Outlook.initial v).furthestAct < k ∧ k ≤ o.furthestAct := by
        intro b hb
        obtain ⟨k, hk⟩ := List.mem_iff_getElem?.1 hb
        rw [List.getElem?_drop, List.getElem?_take] at hk
        split at hk
        · exact ⟨i + 1 + k, Table.position?_of_getElem? hk, by omega, by omega⟩
        · cases hk
      generalize ((v.catalog.acts.toList.map (·.id)).take (j + 1)).drop (i + 1) = passed at hpassed
      refine { h with
        act := .inr ⟨j, hj, by omega, hfurthest⟩
        reached := ⟨later ++ passed.filter (· ∉ w.reachedActs), ?_, fun b hb => ?_⟩ }
      · exact (congrArg (· ++ _) hlater).trans (List.append_assoc ..)
      · rcases List.mem_append.1 hb with hb | hb
        · exact hpast b hb
        · exact hpassed b (List.mem_filter.1 hb).1
    · exact h
  · exact h

theorem flag (h : w.Within v o) {n : String} {x : Option FlagValue}
    (hx : ∀ y, x = some y → o.Foresees v (.setFlag n y)) :
    { w with flags := Function.update w.flags n x }.Within v o :=
  { h with
    flags := fun m y hy => by
      rcases of_update_eq hy with ⟨rfl, hset⟩ | ⟨-, hold⟩
      · exact .inr (hx y hset)
      · exact h.flags m y hold }

theorem give (h : w.Within v o) {i : EntityId} (hi : w.placement i ≠ .destroyed)
    (he : o.Foresees v (.giveItem i)) : (w.after v.catalog (.giveItem i)).Within v o := by
  have hgain : o.knows (.gain i) = true := by
    have hne : v.placement i ≠ .destroyed := fun hd => hi (h.destroyed i hd)
    exact he _ (by simp [View.facts, hne])
  refine { h with
    carried := fun j hj => ?_
    lying := fun j l hl => ?_
    destroyed := fun j hd => ?_ }
  · change j ∈ (if i ∈ w.inventory then w.inventory else w.inventory ++ [i]) at hj
    split at hj
    · exact h.carried j hj
    · rcases List.mem_append.1 hj with hj | hj
      · exact h.carried j hj
      · rwa [List.mem_singleton.1 hj]
  · rcases of_update_eq hl with ⟨-, hl⟩ | ⟨-, hl⟩
    · cases hl
    · exact h.lying j l hl
  · have hne : j ≠ i := fun heq => hi (heq ▸ h.destroyed j hd)
    exact (Function.update_of_ne hne ..).trans (h.destroyed j hd)

/-- A foreseen effect keeps the world within the outlook. -/
theorem after (h : w.Within v o) (hw : ∀ i ∈ w.inventory, w.placement i = .carried) {e : Effect}
    (hallows : w.Allows e) (he : o.Foresees v e) : (w.after v.catalog e).Within v o := by
  cases e with
  | setFlag flag x =>
    refine h.flag fun y hy => ?_
    cases hy
    exact he
  | clearFlag flag => exact h.flag fun y hy => nomatch hy
  | giveItem item => exact h.give hallows he
  | removeItem item =>
    show (if item ∈ w.inventory then w.put item .limbo else w).Within v o
    split
    · rename_i hi
      -- Only what is carried is removed, and that is not destroyed.
      exact h.put (.inl (by rw [hw item hi]; simp)) (by simp)
    · exact h
  | destroyItem item => exact h.put (.inr rfl) (by simp)
  | placeItem item location =>
    refine h.put (.inl hallows) fun l hl => .inr (.inl ?_)
    cases hl
    exact he _ List.mem_cons_self
  | handItem item character => exact h.put (.inl hallows) (by simp)
  | movePlayer location => exact { h with here := he (.visit location) List.mem_cons_self }
  | moveCharacter character location =>
    refine { h with standing := fun p l hl => ?_ }
    rcases of_update_eq (b := some location) hl with ⟨rfl, heq⟩ | ⟨-, hl⟩
    · cases heq
      exact .inr (he _ List.mem_cons_self)
    · exact h.standing p l hl
  | adjustCounter character name d => exact h.count ((h.counter character name).addSat he)
  | setCounter character name x =>
    refine h.count ⟨x, .inr (he _ List.mem_cons_self), fun hlt => ?_, fun hlt => ?_⟩
    · exact absurd hlt (Int64.lt_irrefl)
    · exact absurd hlt (Int64.lt_irrefl)
  | lockExit exit b =>
    refine { h with unlocked := fun x hx => ?_ }
    rcases of_update_eq (b := some b) hx with ⟨rfl, heq⟩ | ⟨-, hx⟩
    · cases heq
      exact .inr (he _ List.mem_cons_self)
    · exact h.unlocked x hx
  | hideExit exit b =>
    refine { h with revealed := fun x hx => ?_ }
    rcases of_update_eq (b := some b) hx with ⟨rfl, heq⟩ | ⟨-, hx⟩
    · cases heq
      exact .inr (he _ List.mem_cons_self)
    · exact h.revealed x hx
  | describe key text => exact { h with }
  | completeSpoke spoke =>
    refine { h with spokes := fun d hd => ?_ }
    rcases of_update_eq hd with ⟨rfl, -⟩ | ⟨-, hd⟩
    · have hspoke : o.spokes.contains d = true := he (.spoke d) List.mem_cons_self
      unfold Outlook.mayAtom Outlook.mayLater
      dsimp only
      rw [hspoke, Bool.true_or, Bool.or_true]
    · exact h.spokes d hd
  | advanceAct act => exact h.advance he

end World.Within
/-! ### States -/

/-- The world of the state is within the outlook, its store is consistent, and its beats and
interactions go on from those of the view. -/
structure State.Within (v : View) (o : Outlook) (t : State) : Prop where
  world : (World.of v.catalog t).Within v o
  consistent : t.Consistent v.catalog
  beats : ∀ b ∈ t.firedBeats, o.knows (.beat b) = true
  used : ∀ d ∈ t.usedInteractions, o.knows (.ran d) = true
  fired : ∀ b ∈ v.state.firedBeats, b ∈ t.firedBeats
  spent : ∀ d ∈ v.state.usedInteractions, d ∈ t.usedInteractions

namespace State.Within

variable {v : View} {o : Outlook} {t t' : State}

/-- The state of the view is within every outlook that comes of its own. -/
theorem initial (hv : v.state.Consistent v.catalog) (ho : Learns v (.initial v) o) :
    v.state.Within v o where
  world := {
    here := ho.knows (f := .visit v.state.location) (by simp [Outlook.knows, Outlook.initial])
    carried := fun i hi => ho.knows (f := .gain i)
      (List.contains_iff_mem.2 (Outlook.mem_addAll.2 (.inr hi)))
    flags := fun _ _ h => .inl h
    lying := fun _ _ h => .inl h
    destroyed := fun _ h => h
    standing := fun _ _ h => .inl h
    counter := fun _ _ =>
      ⟨_, .inl rfl, fun h => absurd h Int64.lt_irrefl, fun h => absurd h Int64.lt_irrefl⟩
    unlocked := fun _ h => .inl h
    revealed := fun _ h => .inl h
    spokes := fun d hd => by
      have hd : v.state.completedSpokes.contains d = true := hd
      have hholds : v.holdsAtom (.spoke d) = true := by
        show (v.state.completedSpokes.contains d || _) = true
        rw [hd]
        rfl
      unfold Outlook.mayAtom
      rw [hholds]
      rfl
    act := .inl rfl
    reached := ⟨[], (List.append_nil _).symm, fun _ h => nomatch h⟩ }
  consistent := hv
  beats b hb := ho.knows (f := .beat b) (List.contains_iff_mem.2 (Outlook.mem_addAll.2 (.inr hb)))
  used d hd := ho.knows (f := .ran d) (List.contains_iff_mem.2 (SortedSet.mem_toList.2 hd))
  fired _ h := h
  spent _ h := h

/-! #### What holds -/

theorem answer (h : t.Within v o) {a : Atom} (ha : a.spoke? = none) {f : EntityId → Bool}
    (hholds : (View.mk v.catalog t).answer f a = true) (g k : EntityId → Bool) :
    v.answer g a = true ∨ o.mayLater v k a = true := by
  cases a with
  | flag n =>
    obtain ⟨x, hx, htruthy⟩ := (Option.any_eq_true _ _).1 hholds
    rcases h.world.flags n x hx with hx | hx
    · exact .inl ((Option.any_eq_true _ _).2 ⟨x, hx, htruthy⟩)
    · exact .inr (hx (.truthy n) (by simp [View.facts, htruthy]))
  | flagEquals n x =>
    have hx : t.flags.get? n = some x := by simpa [View.answer] using hholds
    rcases h.world.flags n x hx with hx | hx
    · exact .inl (by simp [View.answer, hx])
    · exact .inr (hx (.value n x) List.mem_cons_self)
  | hasItem i => exact .inr (h.world.carried i (List.contains_iff_mem.1 hholds))
  | itemAt i l =>
    have hl : (View.mk v.catalog t).placement i = .location l := by
      simpa [View.answer, Placement.isIn] using hholds
    rcases h.world.lying i l hl with hl | hl | ⟨hgain, hvisit⟩
    · exact .inl (by simp [View.answer, Placement.isIn, hl])
    · exact .inr (Bool.or_eq_true_iff.2 (.inl hl))
    · exact .inr (Bool.or_eq_true_iff.2 (.inr (Bool.and_eq_true_iff.2 ⟨hgain, hvisit⟩)))
  | «at» l =>
    have hl : t.location = l := by simpa [View.answer] using hholds
    exact .inr (hl ▸ h.world.here)
  | counter p n cmp x =>
    exact .inr (Outlook.counterMay_iff_attainable.2 ⟨_, h.world.counter p n, hholds⟩)
  | spoke d => cases ha
  | beatFired b => exact .inr (h.beats b (List.contains_iff_mem.1 hholds))
  | actReached a =>
    obtain ⟨later, hlater, hpast⟩ := h.world.reached
    have ha : a ∈ (World.of v.catalog t).reachedActs := List.contains_iff_mem.1 hholds
    rw [hlater] at ha
    rcases List.mem_append.1 ha with ha | ha
    · exact .inl (List.contains_iff_mem.2 ha)
    · obtain ⟨i, hi, -, hle⟩ := hpast a ha
      exact .inr ((Option.any_eq_true _ _).2 ⟨i, hi, decide_eq_true hle⟩)
  | interactionUsed d => exact .inr (h.used d hholds)

theorem spoke (h : t.Within v o) (hc : v.catalog.Accepted) {d : Spoke}
    (hd : v.catalog.spokes.get? d.id = some d) {f : EntityId → Bool}
    (hholds : d.condition.eval ((View.mk v.catalog t).answer f) = true) :
    o.mayAtom v (.spoke d.id) = true := by
  have hpossible : d.condition.possible (o.mayInSpoke v) = true :=
    Condition.possible_of_eval _ (fun a ha hhold =>
      have hnone := hc.spoke_atoms (Table.mem_of_get? hd) ha
      Bool.or_eq_true_iff.2 (h.answer hnone hhold _ _)) hholds
  refine Bool.or_eq_true_iff.2 (.inr (Bool.or_eq_true_iff.2 (.inr ?_)))
  exact (Option.any_eq_true _ _).2 ⟨d, hd, hpossible⟩

theorem atom (h : t.Within v o) (hc : v.catalog.Accepted) {a : Atom}
    (hholds : (View.mk v.catalog t).holdsAtom a = true) : o.mayAtom v a = true := by
  cases ha : a.spoke? with
  | none => exact Bool.or_eq_true_iff.2 (h.answer ha hholds _ _)
  | some d =>
    obtain rfl := Atom.spoke?_eq_some_iff.1 ha
    rcases Bool.or_eq_true_iff.1 hholds with hrecorded | hholds
    · exact h.world.spokes d hrecorded
    · obtain ⟨d', hd', hcondition⟩ := (Option.any_eq_true _ _).1 hholds
      obtain rfl := Table.id_of_get? hd'
      exact h.spoke hc hd' hcondition

theorem may (h : t.Within v o) (hc : v.catalog.Accepted) {x : Condition}
    (hholds : (View.mk v.catalog t).holds x = true) : o.may v x = true :=
  Condition.possible_of_eval x (fun _ _ => h.atom hc) hholds

theorem may? (h : t.Within v o) (hc : v.catalog.Accepted) {x : Option Condition}
    (hholds : (View.mk v.catalog t).holds? x = true) : o.may? v x = true := by
  cases x with
  | none => rfl
  | some x => exact h.may hc hholds

/-! #### Changes -/

theorem of_world (h : t.Within v o) {e : Effect} (hap : t.apply v.catalog e = .ok t')
    (hworld : ((World.of v.catalog t).after v.catalog e).Within v o) : t'.Within v o := by
  obtain ⟨hdeclared, hfree, rfl⟩ := State.apply_eq_ok_iff.1 hap
  have hconsistent := h.consistent.change e
  have hof := World.of_change h.consistent.kinds hdeclared (World.allows_iff.2 hfree)
  obtain ⟨_, _, _, _, _, hsame⟩ := State.exists_change_eq (c := v.catalog) t e
  rw [← hof] at hworld
  rw [hsame] at hworld hconsistent ⊢
  exact ⟨hworld, hconsistent, h.beats, h.used, h.fired, h.spent⟩

/-- A foreseen effect keeps the state within the outlook. -/
theorem apply (h : t.Within v o) {e : Effect} (he : o.Foresees v e)
    (hap : t.apply v.catalog e = .ok t') : t'.Within v o := by
  have hallows := World.allows_iff.2 (State.apply_eq_ok_iff.1 hap).2.1
  refine h.of_world hap (h.world.after (fun i hi => ?_) hallows he)
  exact View.placement_of_carried (v := ⟨v.catalog, t⟩) (List.contains_iff_mem.2 hi)

theorem applyAll (h : t.Within v o) {es : List Effect} (hes : ∀ e ∈ es, o.Foresees v e)
    (hap : t.applyAll v.catalog es = .ok t') : t'.Within v o := by
  induction es generalizing t with
  | nil => cases hap; exact h
  | cons e es ih =>
    obtain ⟨m, he, hap⟩ := State.applyAll_cons_eq_ok_iff.1 hap
    exact ih (h.apply (hes e (.head _)) he) (fun e he => hes e (.tail _ he)) hap

theorem drop (h : t.Within v o) {i : EntityId} (hi : t.hasItem i = true)
    (hap : t.apply v.catalog (.placeItem i t.location) = .ok t') : t'.Within v o := by
  have hallows := World.allows_iff.2 (State.apply_eq_ok_iff.1 hap).2.1
  refine h.of_world hap (h.world.put (.inl hallows) fun l hl => .inr (.inr ⟨?_, ?_⟩))
  · exact h.world.carried i (List.contains_iff_mem.1 hi)
  · cases hl
    exact h.world.here

theorem markUsed (h : t.Within v o) {d : EntityId} (hd : o.knows (.ran d) = true) :
    (t.markUsed d).Within v o where
  world := h.world
  consistent := ⟨h.consistent.kinds, h.consistent.stowed⟩
  beats := h.beats
  used i hi := by
    rcases SortedSet.mem_insert.1 hi with rfl | hi
    · exact hd
    · exact h.used i hi
  fired := h.fired
  spent i hi := SortedSet.mem_insert.2 (.inr (h.spent i hi))

theorem markFired (h : t.Within v o) {b : EntityId} (hb : o.knows (.beat b) = true) :
    (t.markFired b).Within v o := by
  unfold State.markFired
  split
  · exact h
  · exact {
      world := h.world
      consistent := ⟨h.consistent.kinds, h.consistent.stowed⟩
      beats := fun i hi => by
        rcases List.mem_append.1 hi with hi | hi
        · exact h.beats i hi
        · rwa [List.mem_singleton.1 hi]
      used := h.used
      fired := fun i hi => List.mem_append_left _ (h.fired i hi)
      spent := h.spent }

theorem setLatches (h : t.Within v o) (ls : List (EntityId × Bool)) :
    (t.setLatches ls).Within v o := by
  unfold State.setLatches
  induction ls generalizing t with
  | nil => exact h
  | cons l ls ih =>
    exact ih ⟨h.world, ⟨h.consistent.kinds, h.consistent.stowed⟩, h.beats, h.used, h.fired, h.spent⟩

theorem completeSpokes (h : t.Within v o) {ds : List EntityId}
    (hds : ∀ d ∈ ds, o.mayAtom v (.spoke d) = true) :
    (ds.foldl State.completeSpoke t).Within v o := by
  induction ds generalizing t with
  | nil => exact h
  | cons d ds ih =>
    refine ih ⟨{ h.world with spokes := fun i hi => ?_ },
      ⟨h.consistent.kinds, h.consistent.stowed⟩, h.beats, h.used, h.fired, h.spent⟩
      fun i hi => hds i (.tail _ hi)
    rcases SortedSet.mem_insert.1 (SortedSet.mem_iff_contains.2 hi) with rfl | hi
    · exact hds i (.head _)
    · exact h.world.spokes i hi

theorem enterAct (h : t.Within v o) {a : EntityId} {i : Nat}
    (hi : v.catalog.acts.position? a = some i) (hlt : (Outlook.initial v).furthestAct < i)
    (hle : i ≤ o.furthestAct) : (t.enterAct a).Within v o where
  world := { h.world with
    act := .inr ⟨i, hi, hlt, hle⟩
    reached := by
      obtain ⟨later, hlater, hpast⟩ := h.world.reached
      show ∃ later, (if t.reachedActs.contains a then t.reachedActs
        else t.reachedActs ++ [a]) = _ ∧ _
      split
      · exact ⟨later, hlater, hpast⟩
      · refine ⟨later ++ [a], ?_, fun b hb => ?_⟩
        · exact (congrArg (· ++ [a]) hlater).trans (List.append_assoc ..)
        · rcases List.mem_append.1 hb with hb | hb
          · exact hpast b hb
          · rw [List.mem_singleton.1 hb]
            exact ⟨i, hi, hlt, hle⟩ }
  consistent := ⟨h.consistent.kinds, h.consistent.stowed⟩
  beats := h.beats
  used := h.used
  fired := h.fired
  spent := h.spent

theorem advanceTurn (h : t.Within v o) : t.advanceTurn.Within v o :=
  ⟨h.world, ⟨h.consistent.kinds, h.consistent.stowed⟩, h.beats, h.used, h.fired, h.spent⟩

theorem setVictory (h : t.Within v o) (d : EntityId) : (t.setVictory d).Within v o :=
  ⟨h.world, ⟨h.consistent.kinds, h.consistent.stowed⟩, h.beats, h.used, h.fired, h.spent⟩

end State.Within
end Storyworld
